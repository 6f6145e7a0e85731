import InfoFlow.Fault
import InfoFlow.FiniteMap
import InfoFlow.Level
import Std.Data.ExtTreeMap

/-!
# The labels of a frame's locals

Every declared local has the level of the value it holds and the level of the
program counter under which it was declared. The first declaration counts: a
later one changes nothing.
-/

namespace InfoFlow

open Std (ExtTreeMap)

/-- The labels of one local. -/
structure LocalLabel (L : Type) where
  level : L
  declaredUnder : L
deriving DecidableEq, Repr

/-- The declared locals of a frame, by name. -/
structure Locals (L : Type) where
  slots : ExtTreeMap String (LocalLabel L)

namespace Locals

variable {L : Type}

def empty : Locals L := ⟨∅⟩

def contains (locals : Locals L) (name : String) : Bool := locals.slots.contains name

def size (locals : Locals L) : Nat := locals.slots.size

/-- The declared locals in the order of their names. -/
def toList (locals : Locals L) : List (String × LocalLabel L) := locals.slots.toList

/-- The labels of a local, if it is declared. -/
def find? (locals : Locals L) (name : String) : Option (LocalLabel L) := locals.slots[name]?

def slot (locals : Locals L) (name : String) : Except Fault (LocalLabel L) :=
  match locals.slots[name]? with
  | some slot => .ok slot
  | none => .error (.unregistered (.local name))

def level (locals : Locals L) (name : String) : Except Fault L :=
  (locals.slot name).map (·.level)

/-- Replace the labels of a local. -/
def put (locals : Locals L) (name : String) (slot : LocalLabel L) : Locals L :=
  ⟨locals.slots.insert name slot⟩

/-- Give a declared local another level; the level under which it was declared
stays. The first component is the level before. -/
def set (locals : Locals L) (name : String) (level : L) : Except Fault (L × Locals L) :=
  (locals.slot name).map fun slot =>
    (slot.level, locals.put name { slot with level })

/-- Declare a local at `bottom`, unless it is declared already. -/
def declare [Level L] (locals : Locals L) (name : String) (declaredUnder : L) : Locals L :=
  if locals.contains name then locals
  else locals.put name ⟨Level.bottom, declaredUnder⟩

/-! ## What the operations do to the labels -/

@[simp] theorem find?_empty (name : String) : (empty : Locals L).find? name = none := by
  simp [find?, empty]

theorem slot_eq_ok {locals : Locals L} {name : String} {slot : LocalLabel L} :
    locals.slot name = .ok slot ↔ locals.find? name = some slot := by
  unfold Locals.slot find?
  cases locals.slots[name]? <;> simp

theorem level_eq_ok {locals : Locals L} {name : String} {level : L} :
    locals.level name = .ok level ↔ ∃ slot, locals.find? name = some slot ∧ slot.level = level := by
  unfold Locals.level Locals.slot find?
  cases locals.slots[name]? <;> simp [Except.map]

theorem slot_of_none {locals : Locals L} {name : String} (h : locals.find? name = none) :
    locals.slot name = .error (.unregistered (.local name)) := by
  unfold find? at h
  unfold Locals.slot
  rw [h]

theorem level_of_none {locals : Locals L} {name : String} (h : locals.find? name = none) :
    locals.level name = .error (.unregistered (.local name)) := by
  unfold Locals.level
  rw [slot_of_none h]
  rfl

theorem contains_iff {locals : Locals L} {name : String} :
    locals.contains name = true ↔ ∃ slot, locals.find? name = some slot := by
  rw [contains, find?, Std.ExtTreeMap.contains_eq_isSome_getElem?, Option.isSome_iff_exists]

theorem find?_put (locals : Locals L) (name : String) (slot : LocalLabel L) (x : String) :
    (locals.put name slot).find? x = if x = name then some slot else locals.find? x := by
  simp only [find?, put, Std.ExtTreeMap.getElem?_insert, Std.compare_eq_iff_eq,
    @eq_comm _ x]

@[simp] theorem find?_put_self (locals : Locals L) (name : String) (slot : LocalLabel L) :
    (locals.put name slot).find? name = some slot := by
  rw [find?_put, if_pos rfl]

/-- Putting labels in their own place changes nothing. -/
theorem put_self {locals : Locals L} {name : String} {slot : LocalLabel L}
    (h : locals.find? name = some slot) : locals.put name slot = locals := by
  unfold put
  rw [FiniteMap.insert_of_getElem? h]

variable [Level L]

/-- A declaration adds at most the local it names, at `bottom`. -/
theorem find?_declare (locals : Locals L) (name : String) (declaredUnder : L) (x : String) :
    (locals.declare name declaredUnder).find? x =
      if x = name then some ((locals.find? name).getD ⟨Level.bottom, declaredUnder⟩)
      else locals.find? x := by
  unfold declare
  split
  · rename_i h
    obtain ⟨slot, h⟩ := contains_iff.1 h
    split
    · subst x; simp [h]
    · rfl
  · rename_i h
    have hnone : locals.find? name = none := by
      cases hf : locals.find? name with
      | none => rfl
      | some slot => exact absurd (contains_iff.2 ⟨slot, hf⟩) h
    simp [find?_put, hnone]

theorem find?_declare_self (locals : Locals L) (name : String) (declaredUnder : L) :
    (locals.declare name declaredUnder).find? name =
      some ((locals.find? name).getD ⟨Level.bottom, declaredUnder⟩) := by
  rw [find?_declare, if_pos rfl]

/-- Declaring a declared local changes nothing. -/
theorem declare_of_some {locals : Locals L} {name : String} {slot : LocalLabel L}
    (h : locals.find? name = some slot) (declaredUnder : L) :
    locals.declare name declaredUnder = locals :=
  if_pos (contains_iff.2 ⟨slot, h⟩)

/-- A declared local is not touched by declarations. -/
theorem find?_declare_of_some {locals : Locals L} {x : String} {slot : LocalLabel L}
    (h : locals.find? x = some slot) (name : String) (declaredUnder : L) :
    (locals.declare name declaredUnder).find? x = some slot := by
  rw [find?_declare]
  split
  · subst x; simp [h]
  · exact h

end Locals

end InfoFlow
