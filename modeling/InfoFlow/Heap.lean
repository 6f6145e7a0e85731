import InfoFlow.Fault
import InfoFlow.FiniteMap
import InfoFlow.Level
import Std.Data.ExtTreeMap

/-!
# The labels of the heap

The heap keeps a record for every object and array that is tracked, and in a
record the level of every registered slot. Slots are named by strings: a field
by its name, an array element by the decimal text of its index. Registering
what is tracked already changes no level; new slots start at `bottom`.

`allocate` hands out handles from a counter and passes over those that callers
have registered themselves.
-/

namespace InfoFlow

open Std (ExtTreeMap)

inductive RecordKind where
  | object
  | array
deriving DecidableEq, Repr

/-- The slot levels of one object or array. -/
structure Record (L : Type) where
  kind : RecordKind
  slots : ExtTreeMap String L

/-- The tracked objects and arrays, and where the search for a fresh handle
starts. -/
structure Heap (L : Type) where
  records : ExtTreeMap Handle (Record L)
  nextHandle : UInt64

/-- The slot name of an array element. -/
def indexKey (index : UInt64) : String := toString index.toNat

namespace Record

variable {L : Type}

/-- A record with no slots. -/
def new (kind : RecordKind) : Record L := ⟨kind, ∅⟩

/-- Register a slot at `bottom`, unless it is registered already. -/
def register [Level L] (record : Record L) (key : String) : Record L :=
  if record.slots.contains key then record
  else { record with slots := record.slots.insert key Level.bottom }

/-- Register the array elements below `length`. -/
def registerBelow [Level L] (record : Record L) (length : Nat) : Record L :=
  (List.range length).foldl (fun record index => record.register (toString index)) record

/-! ## What registration does to the slots -/

section Slots

variable [Level L]

/-- Registering a slot adds at most that slot, at `bottom`. -/
theorem slots_register (record : Record L) (key key' : String) :
    (record.register key).slots[key']? =
      if key' = key then some (record.slots[key]?.getD Level.bottom) else record.slots[key']? := by
  unfold register
  split
  · rename_i h
    rw [ExtTreeMap.contains_eq_isSome_getElem?] at h
    obtain ⟨level, h⟩ := Option.isSome_iff_exists.1 h
    split
    · subst key'; simp [h]
    · rfl
  · rename_i h
    rw [ExtTreeMap.contains_eq_isSome_getElem?] at h
    have hnone : record.slots[key]? = none := by simpa using h
    simp [hnone, ExtTreeMap.getElem?_insert, @eq_comm _ key']

/-- Registering elements adds at most these slots, at `bottom`. -/
theorem slots_registerBelow (record : Record L) (length : Nat) (key : String) :
    (record.registerBelow length).slots[key]? =
      if key ∈ (List.range length).map (toString ·) then
        some (record.slots[key]?.getD Level.bottom)
      else record.slots[key]? := by
  induction length with
  | zero => simp [registerBelow]
  | succ length ih =>
      have hstep : record.registerBelow (length + 1) =
          (record.registerBelow length).register (toString length) := by
        simp [registerBelow, List.range_succ]
      rw [hstep, slots_register]
      by_cases hkey : key = toString length
      · subst key
        rw [if_pos rfl, ih]
        split <;> simp [List.range_succ]
      · rw [if_neg hkey, ih]
        simp only [List.range_succ, List.map_append, List.mem_append, List.map_cons,
          List.map_nil, List.mem_singleton, hkey, or_false]

theorem kind_register (record : Record L) (key : String) :
    (record.register key).kind = record.kind := by
  unfold register
  split <;> rfl

theorem kind_registerBelow (record : Record L) (length : Nat) :
    (record.registerBelow length).kind = record.kind := by
  unfold registerBelow
  induction List.range length generalizing record with
  | nil => rfl
  | cons index indices ih =>
      rw [List.foldl_cons, ih, kind_register]

/-- Elements that are registered stay as they are. -/
theorem registerBelow_registerBelow (record : Record L) (length : Nat) :
    (record.registerBelow length).registerBelow length = record.registerBelow length := by
  have hslots : ((record.registerBelow length).registerBelow length).slots =
      (record.registerBelow length).slots := by
    ext key level
    rw [slots_registerBelow, slots_registerBelow]
    by_cases hkey : key ∈ (List.range length).map (toString ·)
    · simp only [if_pos hkey, Option.getD_some]
    · simp only [if_neg hkey]
  have hkind := kind_registerBelow (record.registerBelow length) length
  exact (congrFun (congrArg mk hkind) _).trans (congrArg (mk _) hslots)

end Slots

end Record

namespace Heap

variable {L : Type}

/-- Handles start at 1. -/
def empty : Heap L := ⟨∅, 1⟩

def contains (heap : Heap L) (id : Handle) : Bool := heap.records.contains id

def record? (heap : Heap L) (id : Handle) : Option (Record L) := heap.records[id]?

def recordCount (heap : Heap L) : Nat := heap.records.size

/-- The level of a slot, if its record is tracked and it is registered there. -/
def level? (heap : Heap L) (id : Handle) (key : String) : Option L :=
  (heap.record? id).bind (·.slots[key]?)

/-- Whether a slot is registered. -/
def containsSlot (heap : Heap L) (id : Handle) (key : String) : Bool :=
  (heap.level? id key).isSome

/-- Replace the record of `id`, or track it with this record. -/
def setRecord (heap : Heap L) (id : Handle) (record : Record L) : Heap L :=
  { heap with records := heap.records.insert id record }

/-- The record of `id`, or an empty one of `kind` if it is not tracked. -/
def recordOrNew (heap : Heap L) (id : Handle) (kind : RecordKind) : Record L :=
  (heap.record? id).getD (.new kind)

/-! ## Registration -/

/-- Track an object. -/
def trackObject (heap : Heap L) (id : Handle) : Heap L :=
  if heap.contains id then heap else heap.setRecord id (.new .object)

/-- The first handle at or after `handle` that is not tracked, looking at
`tries` tracked handles at most. -/
def freeHandle (heap : Heap L) : (tries : Nat) → (handle : UInt64) → UInt64
  | 0, handle => handle
  | tries + 1, handle =>
      if heap.contains ⟨handle⟩ then heap.freeHandle tries (handle + 1) else handle

/-- Track a new record under a fresh handle. When every handle is tracked there
is no fresh one, and the records stay as they are. -/
def allocate (heap : Heap L) (kind : RecordKind) : Handle × Heap L :=
  let handle := heap.freeHandle heap.recordCount heap.nextHandle
  (⟨handle⟩,
    { heap.setRecord ⟨handle⟩ (heap.recordOrNew ⟨handle⟩ kind) with nextHandle := handle + 1 })

section Slots

variable [Level L]

/-- Register a field, tracking its object if need be. -/
def trackField (heap : Heap L) (id : Handle) (field : String) : Heap L :=
  heap.setRecord id ((heap.recordOrNew id .object).register field)

/-- Track an array of `length` elements. A record that is tracked already
becomes an array and keeps its slots. -/
def trackArray (heap : Heap L) (id : Handle) (length : UInt64) : Heap L :=
  heap.setRecord id
    ({ heap.recordOrNew id .array with kind := .array }.registerBelow length.toNat)

/-- Register one array element, tracking its array if need be. -/
def trackElement (heap : Heap L) (id : Handle) (index : UInt64) : Heap L :=
  heap.setRecord id ((heap.recordOrNew id .array).register (indexKey index))

end Slots

/-! ## Levels -/

/-- Give a registered slot another level. The first component is the level
before. -/
def setSlot? (heap : Heap L) (id : Handle) (key : String) (level : L) : Option (L × Heap L) := do
  let record ← heap.record? id
  let previous ← record.slots[key]?
  return (previous, heap.setRecord id { record with slots := record.slots.insert key level })

/-- The outcome of a look-up that fails when the slot is unknown. -/
def orUnknown {α : Type} (slot : Place) : Option α → Except Fault α
  | some a => .ok a
  | none => .error (.unregistered slot)

def fieldLevel (heap : Heap L) (id : Handle) (field : String) : Except Fault L :=
  orUnknown (.field id field) (heap.level? id field)

def setField (heap : Heap L) (id : Handle) (field : String) (level : L) :
    Except Fault (L × Heap L) :=
  orUnknown (.field id field) (heap.setSlot? id field level)

def elementLevel (heap : Heap L) (id : Handle) (index : UInt64) : Except Fault L :=
  orUnknown (.element id (indexKey index)) (heap.level? id (indexKey index))

def setElement (heap : Heap L) (id : Handle) (index : UInt64) (level : L) :
    Except Fault (L × Heap L) :=
  orUnknown (.element id (indexKey index)) (heap.setSlot? id (indexKey index) level)

/-- The number of slots of a record. -/
def size (heap : Heap L) (id : Handle) : Except Fault Nat :=
  orUnknown (.record id) ((heap.record? id).map (·.slots.size))

/-! ## What the operations do to the levels -/

theorem record?_setRecord (heap : Heap L) (id : Handle) (record : Record L) (id' : Handle) :
    (heap.setRecord id record).record? id' = if id' = id then some record else heap.record? id' := by
  simp only [record?, setRecord, ExtTreeMap.getElem?_insert, Std.compare_eq_iff_eq,
    @eq_comm _ id']

theorem contains_iff {heap : Heap L} {id : Handle} :
    heap.contains id = true ↔ heap.record? id ≠ none := by
  rw [contains, record?, ExtTreeMap.contains_eq_isSome_getElem?, Option.isSome_iff_ne_none]

@[simp] theorem level?_empty (id : Handle) (key : String) :
    (empty : Heap L).level? id key = none := by
  simp [level?, record?, empty]

/-- Putting a record in its own place changes nothing. -/
theorem setRecord_self {heap : Heap L} {id : Handle} {record : Record L}
    (h : heap.record? id = some record) : heap.setRecord id record = heap := by
  unfold setRecord
  rw [FiniteMap.insert_of_getElem? h]

theorem level?_setRecord (heap : Heap L) (id : Handle) (record : Record L) (id' : Handle)
    (key : String) :
    (heap.setRecord id record).level? id' key =
      if id' = id then record.slots[key]? else heap.level? id' key := by
  unfold level?
  rw [record?_setRecord]
  split <;> rfl

/-- An empty record stands for one that is not tracked. -/
theorem slots_recordOrNew (heap : Heap L) (id : Handle) (kind : RecordKind) (key : String) :
    (heap.recordOrNew id kind).slots[key]? = heap.level? id key := by
  unfold recordOrNew level?
  cases heap.record? id with
  | none => simp [Record.new]
  | some record => rfl

theorem level?_setRecord_recordOrNew (heap : Heap L) (id : Handle) (kind : RecordKind)
    (id' : Handle) (key : String) :
    (heap.setRecord id (heap.recordOrNew id kind)).level? id' key = heap.level? id' key := by
  rw [level?_setRecord, slots_recordOrNew]
  split
  · subst id'; rfl
  · rfl

theorem level?_trackObject (heap : Heap L) (id id' : Handle) (key : String) :
    (heap.trackObject id).level? id' key = heap.level? id' key := by
  unfold trackObject
  split
  · rfl
  · rename_i h
    have hnone : heap.record? id = none := Classical.not_not.1 (mt contains_iff.2 h)
    have hnew : heap.recordOrNew id .object = .new .object := by simp [recordOrNew, hnone]
    rw [← hnew, level?_setRecord_recordOrNew]

/-- Minting a handle tracks an empty record and leaves all levels. -/
theorem level?_allocate (heap : Heap L) (kind : RecordKind) (id : Handle) (key : String) :
    (heap.allocate kind).2.level? id key = heap.level? id key :=
  level?_setRecord_recordOrNew heap _ kind id key

/-- A registered slot can be set, and no other. -/
theorem setSlot?_of_none {heap : Heap L} {id : Handle} {key : String}
    (h : heap.level? id key = none) (level : L) : heap.setSlot? id key level = none := by
  unfold level? at h
  unfold setSlot?
  cases hr : heap.record? id with
  | none => rfl
  | some record =>
      rw [hr, Option.bind_some] at h
      simp [h]

theorem exists_setSlot? {heap : Heap L} {id : Handle} {key : String} {previous : L}
    (h : heap.level? id key = some previous) (level : L) :
    ∃ heap', heap.setSlot? id key level = some (previous, heap') := by
  unfold level? at h
  unfold setSlot?
  cases hr : heap.record? id with
  | none =>
      rw [hr] at h
      cases h
  | some record =>
      rw [hr, Option.bind_some] at h
      refine ⟨heap.setRecord id { record with slots := record.slots.insert key level }, ?_⟩
      simp [h]

/-- Setting a slot needs it registered, and changes the level of that slot alone. -/
theorem setSlot?_eq_some {heap heap' : Heap L} {id : Handle} {key : String} {level previous : L}
    (h : heap.setSlot? id key level = some (previous, heap')) :
    heap.level? id key = some previous ∧ ∀ id' key', heap'.level? id' key' =
      if id' = id ∧ key' = key then some level else heap.level? id' key' := by
  simp only [setSlot?, Option.bind_eq_bind, Option.bind_eq_some_iff, Option.pure_def,
    Option.some.injEq, Prod.mk.injEq] at h
  obtain ⟨record, hrecord, _, hslot, rfl, rfl⟩ := h
  refine ⟨by simp [level?, hrecord, hslot], fun id' key' => ?_⟩
  rw [level?_setRecord]
  by_cases hid : id' = id
  · subst id'
    by_cases hkey : key' = key
    · simp [hkey]
    · simp [hkey, level?, hrecord, ExtTreeMap.getElem?_insert, Ne.symm hkey]
  · simp [hid]

theorem level?_setSlot?_self {heap heap' : Heap L} {id : Handle} {key : String}
    {level previous : L} (h : heap.setSlot? id key level = some (previous, heap')) :
    heap'.level? id key = some level := by
  rw [(setSlot?_eq_some h).2, if_pos ⟨rfl, rfl⟩]

/-- Giving a slot the level it has changes nothing. -/
theorem setSlot?_self {heap : Heap L} {id : Handle} {key : String} {level : L}
    (h : heap.level? id key = some level) : heap.setSlot? id key level = some (level, heap) := by
  obtain ⟨record, hrecord, hslot⟩ := Option.bind_eq_some_iff.1 h
  have hslots := FiniteMap.insert_of_getElem? hslot
  simp only [setSlot?, hrecord, hslot, hslots, setRecord_self hrecord, Option.bind_eq_bind,
    Option.bind_some, Option.pure_def]

/-- Tracking a tracked object changes nothing. -/
theorem trackObject_trackObject (heap : Heap L) (id : Handle) :
    (heap.trackObject id).trackObject id = heap.trackObject id := by
  have htracked : (heap.trackObject id).contains id = true := by
    unfold trackObject
    split
    · assumption
    · exact ExtTreeMap.contains_insert_self
  exact if_pos htracked

section Slots

variable [Level L]

theorem level?_trackField (heap : Heap L) (id : Handle) (field : String) (id' : Handle)
    (key : String) :
    (heap.trackField id field).level? id' key =
      if id' = id ∧ key = field then some ((heap.level? id field).getD Level.bottom)
      else heap.level? id' key := by
  rw [trackField, level?_setRecord, Record.slots_register, slots_recordOrNew, slots_recordOrNew]
  by_cases hid : id' = id
  · subst id'; simp
  · simp [hid]

theorem level?_trackElement (heap : Heap L) (id : Handle) (index : UInt64) (id' : Handle)
    (key : String) :
    (heap.trackElement id index).level? id' key =
      if id' = id ∧ key = indexKey index then
        some ((heap.level? id (indexKey index)).getD Level.bottom)
      else heap.level? id' key := by
  rw [trackElement, level?_setRecord, Record.slots_register, slots_recordOrNew, slots_recordOrNew]
  by_cases hid : id' = id
  · subst id'; simp
  · simp [hid]

/-- Registering a registered slot changes nothing. -/
theorem setRecord_register_of_some {heap : Heap L} {id : Handle} {key : String} {level : L}
    (h : heap.level? id key = some level) (kind : RecordKind) :
    heap.setRecord id ((heap.recordOrNew id kind).register key) = heap := by
  obtain ⟨record, hrecord, hslot⟩ := Option.bind_eq_some_iff.1 h
  have hcontains : record.slots.contains key = true := by
    rw [ExtTreeMap.contains_eq_isSome_getElem?, hslot]
    rfl
  have hsame : (heap.recordOrNew id kind).register key = record := by
    rw [recordOrNew, hrecord, Option.getD_some]
    exact if_pos hcontains
  rw [hsame, setRecord_self hrecord]

theorem trackField_of_some {heap : Heap L} {id : Handle} {field : String} {level : L}
    (h : heap.level? id field = some level) : heap.trackField id field = heap :=
  setRecord_register_of_some h .object

theorem trackElement_of_some {heap : Heap L} {id : Handle} {index : UInt64} {level : L}
    (h : heap.level? id (indexKey index) = some level) : heap.trackElement id index = heap :=
  setRecord_register_of_some h .array

/-- Tracking an array of the same length again changes nothing. -/
theorem trackArray_trackArray (heap : Heap L) (id : Handle) (length : UInt64) :
    (heap.trackArray id length).trackArray id length = heap.trackArray id length := by
  let array : Record L :=
    { heap.recordOrNew id .array with kind := .array }.registerBelow length.toNat
  have htracked : (heap.trackArray id length).record? id = some array := by
    show (heap.setRecord id array).record? id = _
    rw [record?_setRecord, if_pos rfl]
  have harray : ({ array with kind := .array } : Record L) = array := by
    have hkind : array.kind = .array := Record.kind_registerBelow _ _
    rw [← hkind]
  show (heap.trackArray id length).setRecord id _ = _
  rw [recordOrNew, htracked, Option.getD_some, harray, Record.registerBelow_registerBelow,
    setRecord_self htracked]

/-- Tracking an array adds the elements below its length, and no other slots. -/
theorem level?_trackArray (heap : Heap L) (id : Handle) (length : UInt64) (id' : Handle)
    (key : String) :
    (heap.trackArray id length).level? id' key =
      if id' = id ∧ key ∈ (List.range length.toNat).map (toString ·) then
        some ((heap.level? id key).getD Level.bottom)
      else heap.level? id' key := by
  rw [trackArray, level?_setRecord, Record.slots_registerBelow]
  have hslots : ({ heap.recordOrNew id .array with kind := .array } : Record L).slots[key]? =
      heap.level? id key := slots_recordOrNew heap id .array key
  rw [hslots]
  by_cases hid : id' = id
  · subst id'; simp
  · simp [hid]

end Slots

end Heap

end InfoFlow
