import InfoFlow.Proofs.Heap.History

/-!
# Registrations

Objects, fields, arrays and elements may be registered in any order and as often as one likes.
What this makes of a heap is said by the set of the registrations: an object is tracked if one
of them names it (`record?_performAll_ne_none`), and a slot that one of them registers keeps its
level, or begins at bottom (`level?_performAll`). Only the kind of a record depends on their
order, and once it is an array it stays one (`isArray_performAll`).
-/

namespace InfoFlow

open Level (bottom)

variable {L : Type}

namespace Heap

variable {heap heap' : Heap L} {id : Handle}

/-! ## §1  What is seen of a record -/

/-- The slots of a record with their levels, if it is tracked. -/
def slots? (heap : Heap L) (id : Handle) : Option (Std.ExtTreeMap String L) :=
  (heap.record? id).map (·.slots)

theorem slots?_congr (htracked : heap.record? id ≠ none ↔ heap'.record? id ≠ none)
    (hlevel : ∀ key, heap.level? id key = heap'.level? id key) :
    heap.slots? id = heap'.slots? id := by
  unfold slots?
  unfold level? at hlevel
  cases hrecord : heap.record? id with
  | none =>
      have hnone : heap'.record? id = none := by simpa [hrecord] using htracked
      rw [hnone]
  | some record =>
      obtain ⟨record', hrecord'⟩ := Option.ne_none_iff_exists'.1 (htracked.1 (by simp [hrecord]))
      rw [hrecord']
      refine congrArg some (Std.ExtTreeMap.ext_getElem? fun key => ?_)
      simpa [hrecord, hrecord'] using hlevel key

/-- The record of `id` is that of an array. -/
def IsArray (heap : Heap L) (id : Handle) : Prop :=
  ∃ record, heap.record? id = some record ∧ record.kind = .array

/-- An array stays one where records are replaced by records of their own kind, or by arrays. -/
theorem IsArray.setRecord (h : heap.IsArray id) (object : Handle) (kind : RecordKind)
    {record : Record L}
    (hkind : (heap.recordOrNew object kind).kind = .array → record.kind = .array) :
    (heap.setRecord object record).IsArray id := by
  obtain ⟨found, hfound, harray⟩ := h
  by_cases hid : id = object
  · subst hid
    refine ⟨record, ?_, hkind ?_⟩
    · rw [record?_setRecord, if_pos rfl]
    · rw [recordOrNew, hfound]
      exact harray
  · refine ⟨found, ?_, harray⟩
    rw [record?_setRecord, if_neg hid, hfound]

end Heap

namespace HeapOperation

variable {heap : Heap L} {op : HeapOperation L} {ops : List (HeapOperation L)} {id : Handle}
  {key : String}

/-! ## §2  One registration -/

/-- The operations that register an object, a field, an array or an element. -/
def isRegistration : HeapOperation L → Bool
  | trackObject _ | trackField _ _ | trackArray _ _ | trackElement _ _ => true
  | _ => false

theorem not_isClear_of_isRegistration (hop : op.isRegistration = true) : op.isClear = false := by
  cases op with
  | clear => cases hop
  | _ => rfl

variable [Level L]

/-- A registration gives its slots a level where they have none, and leaves all others. -/
theorem level?_perform (hop : op.isRegistration = true) (heap : Heap L) (id : Handle)
    (key : String) :
    (op.perform heap).2.level? id key =
      if op.Registers id (.field key) then some ((heap.level? id key).getD bottom)
      else heap.level? id key := by
  have hunset : op.setLevel? id (.field key) = none := by
    cases op with
    | setField object name level => cases hop
    | setElement array index level => cases hop
    | _ => rfl
  cases affects heap op id (.field key) (not_isClear_of_isRegistration hop) with
  | registers hregisters _ hlevel =>
      rw [if_pos hregisters]
      exact hlevel
  | sets _ _ hset => rw [hunset] at hset; cases hset
  | leaves hnot _ hlevel =>
      rw [if_neg hnot]
      exact hlevel

/-- A registration tracks the object that it names. -/
theorem record?_perform_ne_none (hop : op.isRegistration = true) (heap : Heap L) (id : Handle) :
    (op.perform heap).2.record? id ≠ none ↔ op.object? = some id ∨ heap.record? id ≠ none := by
  rw [record?_perform heap op id (not_isClear_of_isRegistration hop)]
  refine or_congr_left ?_
  cases op with
  | trackObject _ | trackField _ _ | trackArray _ _ | trackElement _ _ =>
      exact Option.some_inj.symm
  | _ => cases hop

/-! ## §3  Any number of them -/

/-- The heap after these operations, the first one first. -/
def performAll (ops : List (HeapOperation L)) (heap : Heap L) : Heap L :=
  ops.foldl (fun heap op => (op.perform heap).2) heap

/-- **A slot that one of the registrations registers** has the level that it had, or bottom. -/
theorem level?_performAll (hops : ∀ op ∈ ops, op.isRegistration = true) (heap : Heap L)
    (id : Handle) (key : String) :
    (performAll ops heap).level? id key =
      if Registered id (.field key) ops then some ((heap.level? id key).getD bottom)
      else heap.level? id key := by
  induction ops generalizing heap with
  | nil => exact (if_neg (fun ⟨_, hmem, _⟩ => List.not_mem_nil hmem)).symm
  | cons op ops ih =>
      obtain ⟨hop, hrest⟩ := List.forall_mem_cons.1 hops
      show (performAll ops (op.perform heap).2).level? id key = _
      rw [ih hrest, level?_perform hop]
      by_cases hregisters : op.Registers id (.field key)
      · simp [registered_cons, hregisters]
      · simp [registered_cons, hregisters]

/-- **An object is tracked** if it was, or if one of the registrations names it. -/
theorem record?_performAll_ne_none (hops : ∀ op ∈ ops, op.isRegistration = true) (heap : Heap L)
    (id : Handle) :
    (performAll ops heap).record? id ≠ none ↔
      (∃ op ∈ ops, op.object? = some id) ∨ heap.record? id ≠ none := by
  induction ops generalizing heap with
  | nil => simp [performAll]
  | cons op ops ih =>
      obtain ⟨hop, hrest⟩ := List.forall_mem_cons.1 hops
      show (performAll ops (op.perform heap).2).record? id ≠ none ↔ _
      rw [ih hrest, record?_perform_ne_none hop, List.exists_mem_cons_iff, or_left_comm, or_assoc]

/-- Registrations that are the same ones, whatever their order and number, lead to the same
slots. -/
theorem slots?_performAll_congr {ops' : List (HeapOperation L)}
    (hops : ∀ op ∈ ops, op.isRegistration = true) (hsame : ∀ op, op ∈ ops' ↔ op ∈ ops)
    (heap : Heap L) (id : Handle) :
    (performAll ops' heap).slots? id = (performAll ops heap).slots? id := by
  have hops' : ∀ op ∈ ops', op.isRegistration = true := fun op hop => hops op ((hsame op).1 hop)
  refine Heap.slots?_congr ?_ fun key => ?_
  · simp only [record?_performAll_ne_none hops', record?_performAll_ne_none hops, hsame]
  · have hregistered : Registered id (.field key) ops' ↔ Registered id (.field key) ops := by
      simp only [Registered, hsame]
    rw [level?_performAll hops', level?_performAll hops, if_congr hregistered rfl rfl]

/-- The registrations of the elements below a length, one after the other. -/
def elementsBelow (array : Handle) (length : UInt64) : List (HeapOperation L) :=
  (List.range length.toNat).map fun index => trackElement array (.ofNat index)

omit [Level L] in
theorem registered_elementsBelow {array : Handle} {length : UInt64} :
    Registered id (.field key) (elementsBelow array length : List (HeapOperation L)) ↔
      (trackArray array length : HeapOperation L).Registers id (.field key) := by
  simp only [Registered, elementsBelow, List.mem_map, List.mem_range]
  constructor
  · rintro ⟨_, ⟨index, hindex, rfl⟩, harray, hsame⟩
    refine ⟨harray, .ofNat index, ?_, hsame⟩
    rw [UInt64.lt_iff_toNat_lt, UInt64.toNat_ofNat_of_lt' (Nat.lt_trans hindex length.toNat_lt)]
    exact hindex
  · rintro ⟨harray, index, hindex, hsame⟩
    refine ⟨_, ⟨index.toNat, UInt64.lt_iff_toNat_lt.1 hindex, rfl⟩, harray, ?_⟩
    rw [UInt64.ofNat_toNat]
    exact hsame

/-- Registering the elements below a length one by one comes to registering them at once. -/
theorem level?_elementsBelow (heap : Heap L) (array : Handle) (length : UInt64) (id : Handle)
    (key : String) :
    (performAll (elementsBelow array length) heap).level? id key =
      ((trackArray array length).perform heap).2.level? id key := by
  have hops : ∀ op ∈ (elementsBelow array length : List (HeapOperation L)),
      op.isRegistration = true := by
    intro op hop
    obtain ⟨index, -, rfl⟩ := List.mem_map.1 hop
    rfl
  rw [level?_performAll hops, level?_perform rfl, if_congr registered_elementsBelow rfl rfl]

/-! ## §4  Arrays -/

theorem isArray_trackArray (heap : Heap L) (id : Handle) (length : UInt64) :
    ((trackArray id length).perform heap).2.IsArray id := by
  refine ⟨({ heap.recordOrNew id .array with kind := .array } : Record L).registerBelow
    length.toNat, ?_, Record.kind_registerBelow _ _⟩
  show (heap.setRecord id _).record? id = _
  rw [Heap.record?_setRecord, if_pos rfl]

/-- **An array stays an array**, whatever is done but clearing the heap. -/
theorem isArray_perform (h : heap.IsArray id) (hclear : op.isClear = false) :
    (op.perform heap).2.IsArray id := by
  have hsetting : ∀ (object : Handle) (path : SlotPath) (level : L),
      ((path.setting object level).perform heap).2.IsArray id := by
    intro object path level
    rw [perform_setting]
    cases hset : heap.setSlot? object path.key level with
    | none => exact h
    | some result =>
        simp only [Heap.setSlot?, Option.bind_eq_bind, Option.bind_eq_some_iff, Option.pure_def,
          Option.some.injEq] at hset
        obtain ⟨record, hrecord, previous, -, rfl⟩ := hset
        refine h.setRecord object .object ?_
        rw [Heap.recordOrNew, hrecord]
        exact fun harray => harray
  cases op with
  | allocate kind =>
      exact h.setRecord ⟨heap.freeHandle _ _⟩ kind fun harray => harray
  | trackObject object =>
      show (heap.trackObject object).IsArray id
      unfold Heap.trackObject
      split
      · exact h
      · rename_i hnew
        refine h.setRecord object .object ?_
        rw [Heap.recordOrNew, Classical.not_not.1 (mt Heap.contains_iff.2 hnew)]
        exact fun harray => harray
  | trackField object name =>
      exact h.setRecord object .object ((Record.kind_register _ _).trans ·)
  | trackElement array index =>
      exact h.setRecord array .array ((Record.kind_register _ _).trans ·)
  | trackArray array length =>
      exact h.setRecord array .array fun _ => Record.kind_registerBelow _ _
  | setField object name level => exact hsetting object (.field name) level
  | setElement array index level => exact hsetting array (.element index) level
  | clear => cases hclear
  | _ => exact h

theorem isArray_performAll (h : heap.IsArray id) (hclear : ∀ op ∈ ops, op.isClear = false) :
    (performAll ops heap).IsArray id := by
  induction ops generalizing heap with
  | nil => exact h
  | cons op ops ih =>
      obtain ⟨hop, hrest⟩ := List.forall_mem_cons.1 hclear
      exact ih (isArray_perform h hop) hrest

/-! ## §5  Registrations commute -/

/-- **Registrations commute and never relabel.** On any heap, registrations in another order or
with repetitions lead to the same tracked objects, each with the same slots at the same levels.
A slot that had a level keeps it, and a new one is at bottom. An array of some length has the
slots that registering the elements below the length one by one would give it. And once a
record was registered as an array it is that of an array, after all operations but clearing. -/
theorem registrations_commute (heap : Heap L) :
    (∀ ops ops' : List (HeapOperation L), (∀ op ∈ ops, op.isRegistration = true) →
      (∀ op, op ∈ ops' ↔ op ∈ ops) →
        ∀ id, (performAll ops' heap).slots? id = (performAll ops heap).slots? id) ∧
    (∀ ops : List (HeapOperation L), (∀ op ∈ ops, op.isRegistration = true) → ∀ id key,
      (∀ level, heap.level? id key = some level →
        (performAll ops heap).level? id key = some level) ∧
      (heap.level? id key = none → ∀ level, (performAll ops heap).level? id key = some level →
        level = bottom)) ∧
    (∀ array length id key, (performAll [trackArray array length] heap).level? id key =
      (performAll (elementsBelow array length) heap).level? id key) ∧
    ∀ id length later, (∀ op ∈ later, op.isClear = false) →
      (performAll (trackArray id length :: later) heap).IsArray id := by
  refine ⟨fun ops ops' hops hsame id => slots?_performAll_congr hops hsame heap id,
    fun ops hops id key => ⟨fun level hlevel => ?_, fun hnone level hlevel => ?_⟩,
    fun array length id key => ?_, fun id length later hclear => ?_⟩
  · rw [level?_performAll hops, hlevel, Option.getD_some, ite_self]
  · rw [level?_performAll hops, hnone] at hlevel
    split at hlevel
    · exact (Option.some_inj.1 hlevel).symm
    · cases hlevel
  · exact (level?_elementsBelow heap array length id key).symm
  · show (performAll later ((trackArray id length).perform heap).2).IsArray id
    exact isArray_performAll (isArray_trackArray heap id length) hclear

section Witness

/-- An object with a field that is also its second element, at a level of its own. -/
def raisedElement : Heap TwoLevel :=
  performAll [.trackField ⟨7⟩ "1", .setField ⟨7⟩ "1" .high] .empty

/-- The object becomes an array of three elements, gets a field, and another one is tracked. -/
def growing : List (HeapOperation TwoLevel) :=
  [.trackArray ⟨7⟩ 3, .trackField ⟨7⟩ "01", .trackObject ⟨8⟩]

/-- The same with repetitions, and in another order. -/
def growingAgain : List (HeapOperation TwoLevel) :=
  [.trackObject ⟨8⟩, .trackField ⟨7⟩ "01", .trackArray ⟨7⟩ 3, .trackObject ⟨8⟩,
    .trackField ⟨7⟩ "01"]

theorem registrations_commute_growing :
    (∀ op ∈ growing, op.isRegistration = true) ∧ (∀ op, op ∈ growingAgain ↔ op ∈ growing) ∧
      (∀ id, (performAll growingAgain raisedElement).slots? id =
        (performAll growing raisedElement).slots? id) ∧
      (performAll growing raisedElement).level? ⟨7⟩ "1" = some .high ∧
      (performAll growing raisedElement).level? ⟨7⟩ "01" = some .low ∧
      (performAll growing raisedElement).level? ⟨7⟩ "2" =
        (performAll (elementsBelow ⟨7⟩ 3) raisedElement).level? ⟨7⟩ "2" ∧
      (raisedElement.record? ⟨7⟩).map (·.kind) = some .object ∧
      (performAll (.trackArray ⟨7⟩ 3 :: [.setField ⟨7⟩ "0" .high, .trackObject ⟨7⟩,
        .allocate .object]) raisedElement).IsArray ⟨7⟩ := by
  obtain ⟨hsame, hlevels, helements, harray⟩ := registrations_commute raisedElement
  have hops : ∀ op ∈ growing, op.isRegistration = true := by decide
  have hagain : ∀ op, op ∈ growingAgain ↔ op ∈ growing := by
    intro op
    simp only [growingAgain, growing, List.mem_cons, List.not_mem_nil, or_false]
    tauto
  have hhigh : raisedElement.level? ⟨7⟩ "1" = some .high := by rfl
  have hnone : raisedElement.level? ⟨7⟩ "01" = none := by rfl
  refine ⟨hops, hagain, hsame growing growingAgain hops hagain,
    (hlevels growing hops ⟨7⟩ "1").1 .high hhigh, ?_, ?_, by rfl, ?_⟩
  · obtain ⟨level, hlevel⟩ : ∃ level,
        (performAll growing raisedElement).level? ⟨7⟩ "01" = some level := ⟨_, by rfl⟩
    rw [hlevel, (hlevels growing hops ⟨7⟩ "01").2 hnone level hlevel]
    rfl
  · rw [← helements ⟨7⟩ 3 ⟨7⟩ "2"]
    rfl
  · exact harray ⟨7⟩ 3 _ (by decide)

end Witness

end HeapOperation

end InfoFlow
