import InfoFlow.Proofs.Session.Rules
import InfoFlow.Session.Action

/-!
# What one operation does to a session

The rules of `Proofs/Session/Rules.lean` seen from three sides: the program
counter (stays, gains a scope, loses one), a declared local (keeps the PC it was
declared under; its level changes by a write, a labelling or an argument), and a
registered heap slot (keeps its level, or takes one at or above the program
counter, unless it is labelled).
-/

namespace InfoFlow

open Level (join joinAll)
open LawfulJoin

namespace Operation

variable {L : Type}

/-! ## §1  Kinds of operations -/

def Enters : Operation L → Prop
  | enter _ _ => True
  | enterOn _ _ => True
  | _ => False

/-- Operations that give local `x` a level that no rule on flows has checked: an
explicit label, or the level of an argument. -/
def Relabels (x : String) : Operation L → Prop
  | label name _ => name = x
  | bindArgument _ name => name = x
  | _ => False

/-- Operations that declare local `x`. -/
def Declares (x : String) : Operation L → Prop
  | declare name => name = x
  | bindArgument _ name => name = x
  | _ => False

/-- Operations that set no level without regard to the program counter: all but
explicit labels and the binding of arguments. -/
def Checked : Operation L → Prop
  | label _ _ => False
  | labelField _ _ _ => False
  | bindArgument _ _ => False
  | _ => True

theorem Checked.not_relabels {op : Operation L} (h : op.Checked) (x : String) :
    ¬ op.Relabels x := by
  cases op with
  | label name level => exact h.elim
  | bindArgument position name => exact h.elim
  | _ => exact id

variable [Level L] {s s' : Session L} {heap heap' : Heap L} {op : Operation L} {reply : Reply L}

/-! ## §2  The program counter -/

/-- The program counter stays, or a scope is opened at its level or above, or
the innermost scope is closed. -/
theorem Succeeds.pc_cases [LawfulJoin L] (h : Succeeds s heap op reply s' heap') :
    s'.pc = s.pc ∨
      (∃ tag condition, s.pc.level ≤ condition ∧ s.pc.enter condition tag = .ok s'.pc) ∨
      ∃ tag, s.pc.leave tag = .ok s'.pc := by
  cases h with
  | enter entered => exact Or.inr (Or.inl ⟨_, _, right_le_join _ _, entered⟩)
  | enterOn read entered => exact Or.inr (Or.inl ⟨_, _, right_le_join _ _, entered⟩)
  | exit left => exact Or.inr (Or.inr ⟨_, left⟩)
  | _ => exact Or.inl rfl

/-- Entering a branch answers the program counter inside it, and changes
nothing but the open scopes. -/
theorem Succeeds.of_enters (h : Succeeds s heap op reply s' heap') (henter : op.Enters) :
    reply = .level s'.pc.level ∧ s'.locals = s.locals ∧ heap' = heap ∧
      ∃ scope, s'.pc = { s.pc with scopes := scope :: s.pc.scopes } := by
  cases h with
  | enter entered =>
      obtain ⟨-, rfl⟩ := ProgramCounter.enter_eq_ok.1 entered
      exact ⟨rfl, rfl, rfl, _, rfl⟩
  | enterOn read entered =>
      obtain ⟨-, rfl⟩ := ProgramCounter.enter_eq_ok.1 entered
      exact ⟨rfl, rfl, rfl, _, rfl⟩
  | _ => exact henter.elim

theorem Succeeds.level_le_of_enters [LawfulJoin L] (h : Succeeds s heap op reply s' heap')
    (henter : op.Enters) : s.pc.level ≤ s'.pc.level := by
  cases h with
  | enter entered =>
      obtain ⟨-, rfl⟩ := ProgramCounter.enter_eq_ok.1 entered
      exact left_le_join _ _
  | enterOn read entered =>
      obtain ⟨-, rfl⟩ := ProgramCounter.enter_eq_ok.1 entered
      exact left_le_join _ _
  | _ => exact henter.elim

theorem Succeeds.of_exit {tag : Tag} (h : Succeeds s heap (.exit tag) reply s' heap') :
    s'.locals = s.locals ∧ heap' = heap ∧ s.pc.leave tag = .ok s'.pc := by
  cases h with
  | exit left => exact ⟨rfl, rfl, left⟩

/-- Leaving a branch takes away the scope that entering it has put on top. -/
theorem Succeeds.pc_eq_of_scope {s₁ s₂ : Session L} {tag tag' : Tag} {condition : List L}
    {heap₁ heap₂ : Heap L} {reply reply' : Reply L}
    (henter : Succeeds s heap (.enter tag condition) reply s₁ heap₁) (hinside : s₂.pc = s₁.pc)
    (hexit : Succeeds s₂ heap₂ (.exit tag') reply' s' heap') : tag' = tag ∧ s'.pc = s.pc := by
  cases henter with
  | enter entered =>
      obtain ⟨-, rfl⟩ := ProgramCounter.enter_eq_ok.1 entered
      obtain ⟨-, -, hpop⟩ := hexit.of_exit
      obtain ⟨top, outer, hscopes, htag, hpc⟩ := ProgramCounter.leave_eq_ok.1 hpop
      rw [hinside] at hscopes hpc
      obtain ⟨rfl, rfl⟩ := List.cons.inj hscopes
      exact ⟨htag.symm, hpc⟩

/-! ## §3  Locals -/

/-- A declared local stays declared under the same PC. Its level is what it was,
or the operation relabels it, or a write commits a level that the rule on
sensitive upgrades admits. -/
theorem Succeeds.find?_cases (h : Succeeds s heap op reply s' heap') {x : String}
    {slot : LocalLabel L} (hx : s.locals.find? x = some slot) :
    ∃ slot', s'.locals.find? x = some slot' ∧ slot'.declaredUnder = slot.declaredUnder ∧
      (slot' = slot ∨ op.Relabels x ∨ ∃ operand, op = .write x operand ∧
        slot'.level = join operand s.pc.level ∧
        (s.PreExisting slot → join operand s.pc.level ≤ slot.level)) := by
  cases h with
  | declare name =>
      exact ⟨slot, Locals.find?_declare_of_some hx name _, rfl, Or.inl rfl⟩
  | @write name operand found hfound admitted =>
      by_cases hname : x = name
      · subst hname
        obtain rfl : found = slot := Option.some.inj (hfound.symm.trans hx)
        exact ⟨_, Locals.find?_put_self _ _ _, rfl,
          Or.inr (Or.inr ⟨operand, rfl, rfl, admitted⟩)⟩
      · exact ⟨slot, by rw [Locals.find?_put, if_neg hname, hx], rfl, Or.inl rfl⟩
  | @label name level found hfound =>
      by_cases hname : x = name
      · subst hname
        obtain rfl : found = slot := Option.some.inj (hfound.symm.trans hx)
        exact ⟨_, Locals.find?_put_self _ _ _, rfl, Or.inr (Or.inl rfl)⟩
      · exact ⟨slot, by rw [Locals.find?_put, if_neg hname, hx], rfl, Or.inl rfl⟩
  | @bindArgument position name level found hpassed hfound =>
      have hdeclared := Locals.find?_declare_of_some hx name s.pc.level
      by_cases hname : x = name
      · subst hname
        obtain rfl : found = slot := Option.some.inj (hfound.symm.trans hdeclared)
        exact ⟨_, Locals.find?_put_self _ _ _, rfl, Or.inr (Or.inl rfl)⟩
      · exact ⟨slot, by rw [Locals.find?_put, if_neg hname, hdeclared], rfl, Or.inl rfl⟩
  | _ => exact ⟨slot, hx, rfl, Or.inl rfl⟩

/-- A write answers what it commits, which the rule on sensitive upgrades admits. -/
theorem Succeeds.of_write {name : String} {operand : L}
    (h : Succeeds s heap (.write name operand) reply s' heap') :
    reply = .level (join operand s.pc.level) ∧ ∃ slot, s.locals.find? name = some slot ∧
      (s.PreExisting slot → join operand s.pc.level ≤ slot.level) := by
  cases h with
  | write found admitted => exact ⟨rfl, _, found, admitted⟩

/-- A local that is not declared stays so, or the operation declares it under the
current PC. -/
theorem Succeeds.find?_cases_of_none (h : Succeeds s heap op reply s' heap') {x : String}
    (hx : s.locals.find? x = none) :
    s'.locals.find? x = none ∨
      op.Declares x ∧ ∃ slot, s'.locals.find? x = some slot ∧ slot.declaredUnder = s.pc.level := by
  have hput : ∀ {name : String} {found put : LocalLabel L}, s.locals.find? name = some found →
      (s.locals.put name put).find? x = none := by
    intro name found put hfound
    have hne : x ≠ name := by
      rintro rfl
      rw [hx] at hfound
      cases hfound
    rw [Locals.find?_put, if_neg hne, hx]
  cases h with
  | declare name =>
      by_cases hname : x = name
      · subst hname
        refine Or.inr ⟨rfl, ⟨Level.bottom, s.pc.level⟩, ?_, rfl⟩
        rw [Locals.find?_declare, if_pos rfl, hx, Option.getD_none]
      · rw [Locals.find?_declare, if_neg hname, hx]
        exact Or.inl rfl
  | write found admitted => exact Or.inl (hput found)
  | label found => exact Or.inl (hput found)
  | @bindArgument position name level found passed hfound =>
      by_cases hname : x = name
      · subst hname
        rw [Locals.find?_declare, if_pos rfl, hx, Option.getD_none] at hfound
        cases hfound
        exact Or.inr ⟨rfl, _, Locals.find?_put_self _ _ _, rfl⟩
      · rw [Locals.find?_put, if_neg hname, Locals.find?_declare, if_neg hname, hx]
        exact Or.inl rfl
  | _ => exact Or.inl hx

/-! ## §4  Heap slots -/

omit [Level L] in
theorem level?_of_setSlot? {id : Handle} {key : String} {level previous : L}
    (set : heap.setSlot? id key level = some (previous, heap')) {id' : Handle} {key' : String}
    {old : L} (hold : heap.level? id' key' = some old) :
    heap'.level? id' key' = some level ∨ heap'.level? id' key' = some old := by
  rw [(Heap.setSlot?_eq_some set).2]
  by_cases hslot : id' = id ∧ key' = key
  · exact Or.inl (if_pos hslot)
  · exact Or.inr ((if_neg hslot).trans hold)

theorem level?_trackField_of_some {id id' : Handle} {field key : String} {level : L}
    (h : heap.level? id' key = some level) :
    (heap.trackField id field).level? id' key = some level := by
  rw [Heap.level?_trackField]
  split
  · rename_i hslot
    obtain ⟨rfl, rfl⟩ := hslot
    rw [h, Option.getD_some]
  · exact h

theorem level?_trackElement_of_some {id id' : Handle} {index : UInt64} {key : String} {level : L}
    (h : heap.level? id' key = some level) :
    (heap.trackElement id index).level? id' key = some level := by
  rw [Heap.level?_trackElement]
  split
  · rename_i hslot
    obtain ⟨rfl, rfl⟩ := hslot
    rw [h, Option.getD_some]
  · exact h

theorem level?_trackArray_of_some {id id' : Handle} {length : UInt64} {key : String} {level : L}
    (h : heap.level? id' key = some level) :
    (heap.trackArray id length).level? id' key = some level := by
  rw [Heap.level?_trackArray]
  split
  · rename_i hslot
    rw [← hslot.1, h, Option.getD_some]
  · exact h

theorem level?_withField_of_some {id id' : Handle} {field key : String} {level : L}
    (h : heap.level? id' key = some level) :
    (s.withField heap id field).level? id' key = some level := by
  unfold Session.withField
  split
  · exact level?_trackField_of_some h
  · exact h

theorem level?_withElement_of_some {id id' : Handle} {index : UInt64} {key : String} {level : L}
    (h : heap.level? id' key = some level) :
    (s.withElement heap id index).level? id' key = some level := by
  unfold Session.withElement
  split
  · exact level?_trackElement_of_some h
  · exact h

/-- A registered slot stays registered. An operation that labels nothing leaves
its level, or writes one at or above the program counter. -/
theorem Succeeds.level?_cases [LawfulJoin L] (h : Succeeds s heap op reply s' heap')
    (hop : op.Checked) {id : Handle} {key : String} {level : L}
    (hslot : heap.level? id key = some level) :
    ∃ level', heap'.level? id key = some level' ∧ (level' = level ∨ s.pc.level ≤ level') := by
  cases h with
  | trackObject id' => exact ⟨level, by rw [Heap.level?_trackObject, hslot], Or.inl rfl⟩
  | trackField id' field => exact ⟨level, level?_trackField_of_some hslot, Or.inl rfl⟩
  | trackArray id' length => exact ⟨level, level?_trackArray_of_some hslot, Or.inl rfl⟩
  | newObject => exact ⟨level, by rw [Heap.level?_allocate, hslot], Or.inl rfl⟩
  | newArray length =>
      refine ⟨level, level?_trackArray_of_some ?_, Or.inl rfl⟩
      rw [Heap.level?_allocate, hslot]
  | writeField set =>
      rcases level?_of_setSlot? set (level?_withField_of_some hslot) with hset | hset
      · exact ⟨_, hset, Or.inr (right_le_join _ _)⟩
      · exact ⟨level, hset, Or.inl rfl⟩
  | writeElement set =>
      rcases level?_of_setSlot? set (level?_withElement_of_some hslot) with hset | hset
      · exact ⟨_, hset, Or.inr (right_le_join _ _)⟩
      · exact ⟨level, hset, Or.inl rfl⟩
  | labelField set => exact hop.elim
  | label found => exact hop.elim
  | bindArgument passed found => exact hop.elim
  | _ => exact ⟨level, hslot, Or.inl rfl⟩

end Operation

/-! ## §5  Actions of a trace -/

namespace Action

variable {L : Type}

def Enters : Action L → Prop
  | enter _ _ => True
  | _ => False

def Exits : Action L → Prop
  | exit _ => True
  | _ => False

theorem scope_cases (action : Action L) :
    (∃ tag condition, action = .enter tag condition) ∨ (∃ tag, action = .exit tag) ∨
      ¬ action.Enters ∧ ¬ action.Exits := by
  cases action with
  | enter tag condition => exact Or.inl ⟨tag, condition, rfl⟩
  | exit tag => exact Or.inr (Or.inl ⟨tag, rfl⟩)
  | _ => exact Or.inr (Or.inr ⟨id, id⟩)

theorem pc_eq_of_succeeds [Level L] {action : Action L} (henters : ¬ action.Enters)
    (hexits : ¬ action.Exits) {s s' : Session L} {heap heap' : Heap L} {reply : Reply L} {level : L}
    (hrule : (action.operation level).Succeeds s heap reply s' heap') : s'.pc = s.pc := by
  cases action with
  | enter tag condition => exact absurd trivial henters
  | exit tag => exact absurd trivial hexits
  | _ =>
      cases hrule
      rfl

end Action

end InfoFlow
