import Mathlib.Data.Finset.Card
import InfoFlow.Heap.Operation
import InfoFlow.Level.Chain
import InfoFlow.Proofs.Heap.SlotPath

/-!
# The heap is a map with history

What the heap answers is said by the operations on it since it was cleared last, without
its tables: whether a slot was registered (`Registered`), and at which level it was set
last, if it was (`lastSet?`). A slot is what a way of reaching it leads to, so that an
operation on a field concerns an element if they are the same slot (`SlotPath.Same`).

Histories are lists of operations, the latest first.
-/

namespace InfoFlow

open Level (bottom)
open SlotPath (Same)

variable {L : Type}

/-! ## §1  Operations and the slots they concern -/

namespace SlotPath

/-- Read the slot of an object. -/
def reading (id : Handle) : SlotPath → HeapOperation L
  | field name => .fieldLevel id name
  | element index => .elementLevel id index

/-- Register the slot of an object. -/
def tracking (id : Handle) : SlotPath → HeapOperation L
  | field name => .trackField id name
  | element index => .trackElement id index

/-- Set the slot of an object to a level. -/
def setting (id : Handle) (level : L) : SlotPath → HeapOperation L
  | field name => .setField id name level
  | element index => .setElement id index level

end SlotPath

namespace HeapOperation

def isClear : HeapOperation L → Bool
  | clear => true
  | _ => false

/-- The operation registers this slot of object `id`. -/
def Registers (id : Handle) (path : SlotPath) : HeapOperation L → Prop
  | trackField object name => object = id ∧ Same (.field name) path
  | trackElement array index => array = id ∧ Same (.element index) path
  | trackArray array length => array = id ∧ ∃ index < length, Same (.element index) path
  | _ => False

/-- The level to which the operation sets this slot of object `id`, if it succeeds. -/
def setLevel? (id : Handle) (path : SlotPath) : HeapOperation L → Option L
  | setField object name level =>
      if object = id ∧ Same (.field name) path then some level else none
  | setElement array index level =>
      if array = id ∧ Same (.element index) path then some level else none
  | _ => none

/-- The object that is asked for. A new handle is not asked for. -/
def object? : HeapOperation L → Option Handle
  | allocate _ => none
  | trackObject id => some id
  | trackField id _ => some id
  | trackArray id _ => some id
  | trackElement id _ => some id
  | fieldLevel id _ => some id
  | elementLevel id _ => some id
  | setField id _ _ => some id
  | setElement id _ _ => some id
  | size id => some id
  | contains id => some id
  | record id => some id
  | clear => none

/-- The operation, which has this answer, tracks object `id`: that of a new handle is the
handle. -/
def Tracks (id : Handle) (answer : Except Fault (HeapReply L)) : HeapOperation L → Prop
  | allocate _ => answer = .ok (.handle id)
  | trackObject object => object = id
  | trackField object _ => object = id
  | trackArray array _ => array = id
  | trackElement array _ => array = id
  | _ => False

variable [Level L]

/-- The heap after these operations, from the empty heap on. -/
def after : List (HeapOperation L) → Heap L
  | [] => .empty
  | op :: earlier => (op.perform (after earlier)).2

/-- What an operation answers after these. -/
def answer (earlier : List (HeapOperation L)) (op : HeapOperation L) :
    Except Fault (HeapReply L) :=
  (op.perform (after earlier)).1

/-! ## §2  Accounts of a history -/

/-- One of these operations has registered the slot. -/
def Registered (id : Handle) (path : SlotPath) (history : List (HeapOperation L)) : Prop :=
  ∃ op ∈ history, op.Registers id path

/-- The level to which the slot was set last, if it was. -/
def lastSet? (id : Handle) (path : SlotPath) : List (HeapOperation L) → Option L
  | [] => none
  | op :: earlier =>
      if (answer earlier op).isOk then (op.setLevel? id path).or (lastSet? id path earlier)
      else lastSet? id path earlier

/-- One of these operations has tracked the object. -/
def Tracked (id : Handle) : List (HeapOperation L) → Prop
  | [] => False
  | op :: earlier => op.Tracks id (answer earlier op) ∨ Tracked id earlier

/-! ## §3  One operation -/

section Operation

variable {heap : Heap L} {op : HeapOperation L} {id : Handle} {path : SlotPath}

theorem perform_reading (heap : Heap L) (id : Handle) (path : SlotPath) :
    (path.reading id).perform heap =
      ((Heap.orUnknown (path.place id) (heap.level? id path.key)).map .level, heap) := by
  cases path <;> rfl

theorem perform_setting (heap : Heap L) (id : Handle) (path : SlotPath) (level : L) :
    (path.setting id level).perform heap =
      setting heap (Heap.orUnknown (path.place id) (heap.setSlot? id path.key level)) := by
  cases path <;> rfl

/-- A slot is set where it is registered, and the level before is answered. -/
theorem setting_cases (heap : Heap L) (id : Handle) (path : SlotPath) (level : L) :
    (heap.level? id path.key = none ∧
        (path.setting id level).perform heap = (.error (.unregistered (path.place id)), heap)) ∨
      ∃ previous heap', heap.level? id path.key = some previous ∧
        (path.setting id level).perform heap = (.ok (.level previous), heap') ∧
        ∀ id' key, heap'.level? id' key =
          if id' = id ∧ key = path.key then some level else heap.level? id' key := by
  rw [perform_setting]
  cases hlevel : heap.level? id path.key with
  | none =>
      rw [Heap.setSlot?_of_none hlevel level]
      exact Or.inl ⟨rfl, rfl⟩
  | some previous =>
      obtain ⟨heap', hset⟩ := Heap.exists_setSlot? hlevel level
      rw [hset]
      exact Or.inr ⟨previous, heap', rfl, rfl, (Heap.setSlot?_eq_some hset).2⟩

theorem level?_tracking (heap : Heap L) (object : Handle) (other : SlotPath) (id : Handle)
    (key : String) :
    ((other.tracking object).perform heap).2.level? id key =
      if id = object ∧ key = other.key then some ((heap.level? id key).getD bottom)
      else heap.level? id key := by
  have hif : (if id = object ∧ key = other.key then
        some ((heap.level? object other.key).getD bottom) else heap.level? id key) =
      if id = object ∧ key = other.key then some ((heap.level? id key).getD bottom)
      else heap.level? id key := by
    by_cases hslot : id = object ∧ key = other.key
    · rw [if_pos hslot, if_pos hslot, hslot.1, hslot.2]
    · rw [if_neg hslot, if_neg hslot]
  rw [← hif]
  cases other with
  | field name => exact Heap.level?_trackField heap object name id key
  | element index => exact Heap.level?_trackElement heap object index id key

/-- The elements below a length are those with an index below it. -/
theorem mem_keys_below {length : UInt64} :
    path.key ∈ (List.range length.toNat).map (toString ·) ↔
      ∃ index < length, Same (.element index) path := by
  simp only [List.mem_map, List.mem_range, SlotPath.same_iff]
  constructor
  · rintro ⟨n, hn, hkey⟩
    have hsize : n < UInt64.size := Nat.lt_trans hn length.toNat_lt
    have hindex : (UInt64.ofNat n).toNat = n := UInt64.toNat_ofNat_of_lt' hsize
    refine ⟨.ofNat n, ?_, ?_⟩
    · rw [UInt64.lt_iff_toNat_lt, hindex]
      exact hn
    · rw [← hkey, SlotPath.key, indexKey, hindex]
  · rintro ⟨index, hindex, hkey⟩
    exact ⟨index.toNat, UInt64.lt_iff_toNat_lt.1 hindex, hkey⟩

instance : Decidable (op.Registers id path) :=
  match op with
  | trackField object name => inferInstanceAs (Decidable (object = id ∧ Same (.field name) path))
  | trackElement array index =>
      inferInstanceAs (Decidable (array = id ∧ Same (.element index) path))
  | trackArray array length => decidable_of_iff
      (array = id ∧ path.key ∈ (List.range length.toNat).map (toString ·))
      (and_congr_right fun _ => mem_keys_below)
  | allocate _ | trackObject _ | fieldLevel _ _ | elementLevel _ _ | setField _ _ _
  | setElement _ _ _ | size _ | contains _ | record _ | clear => isFalse nofun

instance {history : List (HeapOperation L)} : Decidable (Registered id path history) :=
  inferInstanceAs (Decidable (∃ op ∈ history, op.Registers id path))

/-- What an operation does to a slot: it registers the slot, which keeps its level or begins
at bottom; it sets the slot, if that is registered; or it leaves the slot as it is. -/
inductive Affects (heap : Heap L) (op : HeapOperation L) (id : Handle) (path : SlotPath) : Prop
  | registers (registers : op.Registers id path) (unset : op.setLevel? id path = none)
      (level : (op.perform heap).2.level? id path.key =
        some ((heap.level? id path.key).getD bottom))
  | sets {new previous : L} (unregistered : ¬op.Registers id path)
      (ok : (op.perform heap).1.isOk = true) (set : op.setLevel? id path = some new)
      (before : heap.level? id path.key = some previous)
      (level : (op.perform heap).2.level? id path.key = some new)
  | leaves (unregistered : ¬op.Registers id path)
      (unset : (op.perform heap).1.isOk = true → op.setLevel? id path = none)
      (level : (op.perform heap).2.level? id path.key = heap.level? id path.key)

theorem affects_tracking (heap : Heap L) (object : Handle) (other : SlotPath) (id : Handle)
    (path : SlotPath) : Affects heap (other.tracking object) id path := by
  have hregisters : (other.tracking object : HeapOperation L).Registers id path ↔
      object = id ∧ Same other path := by
    cases other <;> rfl
  have hunset : (other.tracking object : HeapOperation L).setLevel? id path = none := by
    cases other <;> rfl
  have hlevel := level?_tracking heap object other id path.key
  by_cases hslot : object = id ∧ Same other path
  · obtain ⟨rfl, hsame⟩ := hslot
    rw [if_pos ⟨rfl, (SlotPath.same_iff.1 hsame).symm⟩] at hlevel
    exact .registers (hregisters.2 ⟨rfl, hsame⟩) hunset hlevel
  · rw [if_neg fun h => hslot ⟨h.1.symm, SlotPath.same_iff.2 h.2.symm⟩] at hlevel
    exact .leaves (mt hregisters.1 hslot) (fun _ => hunset) hlevel

theorem affects_setting (heap : Heap L) (object : Handle) (other : SlotPath) (level : L)
    (id : Handle) (path : SlotPath) : Affects heap (other.setting object level) id path := by
  have hregisters : ¬(other.setting object level).Registers id path := by
    cases other <;> nofun
  have hset : (other.setting object level).setLevel? id path =
      if object = id ∧ Same other path then some level else none := by
    cases other <;> rfl
  rcases setting_cases heap object other level with
    ⟨-, hperform⟩ | ⟨previous, heap', hprevious, hperform, hlevels⟩
  · refine .leaves hregisters (fun hok => ?_) ?_
    · rw [hperform] at hok
      cases hok
    · rw [hperform]
  · have hlevel := hlevels id path.key
    by_cases hslot : object = id ∧ Same other path
    · have hkey := SlotPath.same_iff.1 hslot.2
      rw [if_pos ⟨hslot.1.symm, hkey.symm⟩] at hlevel
      rw [hslot.1, hkey] at hprevious
      refine .sets hregisters ?_ (hset.trans (if_pos hslot)) hprevious ?_
      · rw [hperform]
        rfl
      · rw [hperform]
        exact hlevel
    · rw [if_neg fun h => hslot ⟨h.1.symm, SlotPath.same_iff.2 h.2.symm⟩] at hlevel
      refine .leaves hregisters (fun _ => hset.trans (if_neg hslot)) ?_
      rw [hperform]
      exact hlevel

theorem affects_trackArray (heap : Heap L) (array : Handle) (length : UInt64) (id : Handle)
    (path : SlotPath) : Affects heap (.trackArray array length) id path := by
  have hlevel := Heap.level?_trackArray heap array length id path.key
  by_cases hslot : id = array ∧ path.key ∈ (List.range length.toNat).map (toString ·)
  · obtain ⟨rfl, hkey⟩ := hslot
    rw [if_pos ⟨rfl, hkey⟩] at hlevel
    exact .registers ⟨rfl, mem_keys_below.1 hkey⟩ rfl hlevel
  · rw [if_neg hslot] at hlevel
    exact .leaves (fun h => hslot ⟨h.1.symm, mem_keys_below.2 h.2⟩) (fun _ => rfl) hlevel

/-- **Every operation but clearing** registers a slot, sets it or leaves it. -/
theorem affects (heap : Heap L) (op : HeapOperation L) (id : Handle) (path : SlotPath)
    (hclear : op.isClear = false) : Affects heap op id path := by
  cases op with
  | allocate kind => exact .leaves nofun (fun _ => rfl) (Heap.level?_allocate heap kind id path.key)
  | trackObject object =>
      exact .leaves nofun (fun _ => rfl) (Heap.level?_trackObject heap object id path.key)
  | trackField object name => exact affects_tracking heap object (.field name) id path
  | trackElement array index => exact affects_tracking heap array (.element index) id path
  | trackArray array length => exact affects_trackArray heap array length id path
  | setField object name level => exact affects_setting heap object (.field name) level id path
  | setElement array index level =>
      exact affects_setting heap array (.element index) level id path
  | clear => cases hclear
  | _ => exact .leaves nofun (fun _ => rfl) rfl

end Operation

/-! ## §4  Slots -/

variable {id : Handle} {path : SlotPath} {history : List (HeapOperation L)}

omit [Level L] in
theorem registered_cons {op : HeapOperation L} {earlier : List (HeapOperation L)} :
    Registered id path (op :: earlier) ↔ op.Registers id path ∨ Registered id path earlier := by
  simp [Registered]

/-- The heap has the slot as the history says. -/
structure Accounts (id : Handle) (path : SlotPath) (history : List (HeapOperation L)) : Prop where
  registered : Registered id path history →
    (after history).level? id path.key = some ((lastSet? id path history).getD bottom)
  unregistered : ¬Registered id path history →
    (after history).level? id path.key = none ∧ lastSet? id path history = none

theorem lastSet?_cons_of_none {op : HeapOperation L} {earlier : List (HeapOperation L)}
    (h : (answer earlier op).isOk = true → op.setLevel? id path = none) :
    lastSet? id path (op :: earlier) = lastSet? id path earlier := by
  show (if (answer earlier op).isOk then (op.setLevel? id path).or (lastSet? id path earlier)
    else lastSet? id path earlier) = lastSet? id path earlier
  by_cases hok : (answer earlier op).isOk = true
  · rw [if_pos hok, h hok, Option.none_or]
  · rw [if_neg hok]

theorem lastSet?_cons_of_some {op : HeapOperation L} {earlier : List (HeapOperation L)} {level : L}
    (hok : (answer earlier op).isOk = true) (h : op.setLevel? id path = some level) :
    lastSet? id path (op :: earlier) = some level := by
  show (if (answer earlier op).isOk then (op.setLevel? id path).or (lastSet? id path earlier)
    else lastSet? id path earlier) = some level
  rw [if_pos hok, h, Option.some_or]

theorem Accounts.level?_ne_none (h : Accounts id path history) :
    (after history).level? id path.key ≠ none ↔ Registered id path history := by
  by_cases hregistered : Registered id path history
  · simp [hregistered, h.registered hregistered]
  · simp [hregistered, (h.unregistered hregistered).1]

/-- **The heap has every slot as the history says** since it was cleared. -/
theorem accounts (id : Handle) (path : SlotPath) {history : List (HeapOperation L)}
    (hclear : ∀ op ∈ history, op.isClear = false) : Accounts id path history := by
  -- the latest operation decides, by what it does to the slot
  induction history with
  | nil =>
      refine ⟨fun ⟨op, hop, _⟩ => ?_, fun _ => ⟨Heap.level?_empty id path.key, rfl⟩⟩
      cases hop
  | cons op earlier ih =>
      obtain ⟨hregistered, hunregistered⟩ :=
        ih fun op hop => hclear op (List.mem_cons_of_mem _ hop)
      have hafter : after (op :: earlier) = (op.perform (after earlier)).2 := rfl
      cases affects (after earlier) op id path (hclear op List.mem_cons_self) with
      | registers hregisters hunset hlevel =>
          refine ⟨fun _ => ?_, fun hnot => absurd (registered_cons.2 (Or.inl hregisters)) hnot⟩
          rw [hafter, hlevel, lastSet?_cons_of_none fun _ => hunset]
          by_cases hbefore : Registered id path earlier
          · rw [hregistered hbefore, Option.getD_some]
          · obtain ⟨hnone, hlast⟩ := hunregistered hbefore
            rw [hnone, hlast]
      | @sets new previous hnot hok hset hbefore hlevel =>
          have hregisteredBefore : Registered id path earlier := by
            by_contra hno
            rw [(hunregistered hno).1] at hbefore
            cases hbefore
          refine ⟨fun _ => ?_, fun hno => ?_⟩
          · rw [hafter, hlevel, lastSet?_cons_of_some hok hset, Option.getD_some]
          · exact absurd (registered_cons.2 (Or.inr hregisteredBefore)) hno
      | leaves hnot hunset hlevel =>
          have hsame : Registered id path (op :: earlier) ↔ Registered id path earlier :=
            registered_cons.trans (or_iff_right hnot)
          constructor <;> rw [hafter, hlevel, lastSet?_cons_of_none hunset, hsame]
          · exact hregistered
          · exact hunregistered

/-! ## §5  Records -/

omit [Level L] in
theorem record?_setRecord_ne_none (heap : Heap L) (object : Handle) (record : Record L)
    (id : Handle) :
    (heap.setRecord object record).record? id ≠ none ↔
      object = id ∨ heap.record? id ≠ none := by
  rw [Heap.record?_setRecord]
  by_cases hid : id = object
  · simp [hid]
  · simp [hid, Ne.symm hid]

/-- Setting a slot leaves the heap, or puts another record in the place of one. -/
theorem setting_state (heap : Heap L) (object : Handle) (path : SlotPath) (level : L) :
    ((path.setting object level).perform heap).2 = heap ∨
      ∃ record, heap.record? object ≠ none ∧
        ((path.setting object level).perform heap).2 = heap.setRecord object record := by
  rw [perform_setting]
  cases hset : heap.setSlot? object path.key level with
  | none => exact Or.inl rfl
  | some result =>
      simp only [Heap.setSlot?, Option.bind_eq_bind, Option.bind_eq_some_iff, Option.pure_def,
        Option.some.injEq] at hset
      obtain ⟨record, hrecord, previous, -, rfl⟩ := hset
      refine Or.inr ⟨_, ?_, rfl⟩
      rw [hrecord]
      exact Option.some_ne_none record

/-- Setting a slot tracks nothing. -/
theorem record?_setting (heap : Heap L) (object : Handle) (path : SlotPath) (level : L)
    (id : Handle) :
    ((path.setting object level).perform heap).2.record? id ≠ none ↔
      heap.record? id ≠ none := by
  rcases setting_state heap object path level with hsame | ⟨record, hfound, hset⟩
  · rw [hsame]
  · rw [hset, record?_setRecord_ne_none]
    refine or_iff_right_of_imp ?_
    rintro rfl
    exact hfound

/-- What is asked of one object leaves the records of others. -/
theorem record?_perform_of_ne (heap : Heap L) {op : HeapOperation L} {object id : Handle}
    (hobject : op.object? = some object) (hne : id ≠ object) :
    (op.perform heap).2.record? id = heap.record? id := by
  have hsetRecord : ∀ record, (heap.setRecord object record).record? id = heap.record? id := by
    intro record
    rw [Heap.record?_setRecord, if_neg hne]
  have hsetting : ∀ (path : SlotPath) (level : L),
      ((path.setting object level).perform heap).2.record? id = heap.record? id := by
    intro path level
    rcases setting_state heap object path level with hsame | ⟨record, -, hset⟩
    · rw [hsame]
    · rw [hset, hsetRecord]
  cases op with
  | allocate kind => cases hobject
  | clear => cases hobject
  | trackObject other =>
      cases hobject
      show (heap.trackObject object).record? id = heap.record? id
      unfold Heap.trackObject
      split
      · rfl
      · exact hsetRecord _
  | trackField other name =>
      cases hobject
      exact hsetRecord _
  | trackElement other index =>
      cases hobject
      exact hsetRecord _
  | trackArray other length =>
      cases hobject
      exact hsetRecord _
  | setField other name level =>
      cases hobject
      exact hsetting (.field name) level
  | setElement other index level =>
      cases hobject
      exact hsetting (.element index) level
  | _ => rfl

/-- An operation other than clearing tracks one object at most, and loses none. -/
theorem record?_perform (heap : Heap L) (op : HeapOperation L) (id : Handle)
    (hclear : op.isClear = false) :
    (op.perform heap).2.record? id ≠ none ↔
      op.Tracks id (op.perform heap).1 ∨ heap.record? id ≠ none := by
  cases op with
  | allocate kind =>
      have hanswer : Tracks id ((allocate kind).perform heap).1 (allocate kind) ↔
          (heap.allocate kind).1 = id := by
        show Except.ok (HeapReply.handle (heap.allocate kind).1) = Except.ok (.handle id) ↔ _
        simp
      rw [hanswer]
      exact record?_setRecord_ne_none heap _ _ id
  | trackObject object =>
      show (heap.trackObject object).record? id ≠ none ↔
        object = id ∨ heap.record? id ≠ none
      unfold Heap.trackObject
      by_cases hcontains : heap.contains object = true
      · rw [if_pos hcontains, iff_comm]
        refine or_iff_right_of_imp ?_
        rintro rfl
        exact Heap.contains_iff.1 hcontains
      · rw [if_neg hcontains]
        exact record?_setRecord_ne_none heap object _ id
  | trackField object name => exact record?_setRecord_ne_none heap object _ id
  | trackElement array index => exact record?_setRecord_ne_none heap array _ id
  | trackArray array length => exact record?_setRecord_ne_none heap array _ id
  | setField object name level =>
      have hset := record?_setting heap object (.field name) level id
      exact hset.trans (or_iff_right_of_imp False.elim).symm
  | setElement array index level =>
      have hset := record?_setting heap array (.element index) level id
      exact hset.trans (or_iff_right_of_imp False.elim).symm
  | clear => cases hclear
  | _ => exact (or_iff_right_of_imp False.elim).symm

theorem tracked_iff {history : List (HeapOperation L)}
    (hclear : ∀ op ∈ history, op.isClear = false) :
    Tracked id history ↔ (after history).record? id ≠ none := by
  induction history with
  | nil => simp [Tracked, after, Heap.record?, Heap.empty]
  | cons op earlier ih =>
      have hrest := ih fun op hop => hclear op (List.mem_cons_of_mem _ hop)
      have hop := record?_perform (after earlier) op id (hclear op List.mem_cons_self)
      exact (or_congr_right hrest).trans hop.symm

omit [Level L] in
/-- The size of a record is the number of its keys. -/
theorem size_eq {heap : Heap L} {record : Record L} (found : heap.record? id = some record) :
    ∃ keys : Finset String, (∀ key, key ∈ keys ↔ heap.level? id key ≠ none) ∧
      heap.size id = .ok keys.card := by
  have hlevel : ∀ key, heap.level? id key = record.slots[key]? := by
    intro key
    unfold Heap.level?
    rw [found, Option.bind_some]
  refine ⟨record.slots.keys.toFinset, fun key => ?_, ?_⟩
  · rw [List.mem_toFinset, Std.ExtTreeMap.mem_keys, hlevel]
    simp
  · unfold Heap.size
    rw [found, List.toFinset_card_of_nodup Std.ExtTreeMap.nodup_keys, Std.ExtTreeMap.length_keys]
    rfl

/-! ## §6  Since the heap was cleared -/

/-- The operations since the heap was cleared last. -/
def recent (history : List (HeapOperation L)) : List (HeapOperation L) :=
  history.takeWhile (!·.isClear)

theorem after_recent (history : List (HeapOperation L)) :
    after (recent history) = after history := by
  induction history with
  | nil => rfl
  | cons op earlier ih =>
      unfold recent at ih ⊢
      cases hclear : op.isClear with
      | true =>
          rw [List.takeWhile_cons_of_neg (by simp [hclear])]
          cases op with
          | clear => rfl
          | _ => cases hclear
      | false =>
          rw [List.takeWhile_cons_of_pos (by simp [hclear])]
          show (op.perform (after _)).2 = (op.perform (after earlier)).2
          rw [ih]

omit [Level L] in
theorem not_isClear_of_mem_recent {history : List (HeapOperation L)} :
    ∀ op ∈ recent history, op.isClear = false := by
  intro op hop
  simpa using List.all_eq_true.1 List.all_takeWhile op hop

/-- A slot is read at its level, and set where it has one. -/
theorem answer_of_level {history : List (HeapOperation L)} {level : L}
    (h : (after history).level? id path.key = some level) :
    answer history (path.reading id) = .ok (.level level) ∧
      ∀ new, answer history (path.setting id new) = .ok (.level level) := by
  unfold answer
  refine ⟨by rw [perform_reading, h]; rfl, fun new => ?_⟩
  rcases setting_cases (after history) id path new with
    ⟨hnone, -⟩ | ⟨previous, heap', hlevel, hset, -⟩
  · rw [h] at hnone
    cases hnone
  · rw [h] at hlevel
    cases hlevel
    rw [hset]

theorem answer_of_no_level {history : List (HeapOperation L)}
    (h : (after history).level? id path.key = none) :
    answer history (path.reading id) = .error (.unregistered (path.place id)) ∧
      ∀ new, answer history (path.setting id new) = .error (.unregistered (path.place id)) := by
  unfold answer
  refine ⟨by rw [perform_reading, h]; rfl, fun new => ?_⟩
  rcases setting_cases (after history) id path new with
    ⟨-, hset⟩ | ⟨previous, heap', hlevel, -⟩
  · rw [hset]
  · rw [h] at hlevel
    cases hlevel

/-- What is answered of a slot depends on its level alone. -/
theorem answer_congr {history history' : List (HeapOperation L)}
    (h : (after history').level? id path.key = (after history).level? id path.key) :
    answer history' (path.reading id) = answer history (path.reading id) ∧
      ∀ new, answer history' (path.setting id new) = answer history (path.setting id new) := by
  cases hlevel : (after history).level? id path.key with
  | none =>
      obtain ⟨hread, hset⟩ := answer_of_no_level hlevel
      obtain ⟨hread', hset'⟩ := answer_of_no_level (h.trans hlevel)
      exact ⟨hread'.trans hread.symm, fun new => (hset' new).trans (hset new).symm⟩
  | some level =>
      obtain ⟨hread, hset⟩ := answer_of_level hlevel
      obtain ⟨hread', hset'⟩ := answer_of_level (h.trans hlevel)
      exact ⟨hread'.trans hread.symm, fun new => (hset' new).trans (hset new).symm⟩

theorem size_of_not_tracked {history : List (HeapOperation L)}
    (h : ¬Tracked id (recent history)) :
    answer history (.size id) = .error (.unregistered (.record id)) := by
  rw [tracked_iff not_isClear_of_mem_recent, after_recent, not_not] at h
  show (((after history).size id).map .count : Except Fault (HeapReply L)) = _
  unfold Heap.size
  rw [h]
  rfl

theorem size_of_tracked {history : List (HeapOperation L)} (h : Tracked id (recent history)) :
    ∃ keys : Finset String,
      (∀ key, key ∈ keys ↔ Registered id (.field key) (recent history)) ∧
        answer history (.size id) = .ok (.count keys.card) := by
  rw [tracked_iff not_isClear_of_mem_recent, after_recent] at h
  obtain ⟨record, hrecord⟩ := Option.ne_none_iff_exists'.1 h
  obtain ⟨keys, hkeys, hsize⟩ := size_eq hrecord
  refine ⟨keys, fun key => ?_, ?_⟩
  · rw [hkeys, ← after_recent history]
    exact (accounts id (.field key) not_isClear_of_mem_recent).level?_ne_none
  · show (((after history).size id).map .count : Except Fault (HeapReply L)) = _
    rw [hsize]
    rfl

/-- Two ways lead to one slot exactly if they read the same after all operations. -/
theorem same_iff_reading {path path' : SlotPath} :
    Same path path' ↔ ∀ history : List (HeapOperation L),
      (answer history (path.reading id)).toOption =
        (answer history (path'.reading id)).toOption := by
  have hreading : ∀ (history : List (HeapOperation L)) (path : SlotPath),
      (answer history (path.reading id)).toOption =
        ((after history).level? id path.key).map HeapReply.level := by
    intro history path
    unfold answer
    rw [perform_reading]
    cases (after history).level? id path.key <;> rfl
  simp only [hreading]
  constructor
  · intro hsame history
    rw [SlotPath.same_iff.1 hsame]
  · intro hall
    by_contra hnot
    -- where only the one is registered, the other has no level
    have honly : ∀ key, (after [path'.tracking id]).level? id key =
        if key = path'.key then some (bottom : L) else none := by
      intro key
      show ((path'.tracking id).perform .empty).2.level? id key = _
      rw [level?_tracking]
      simp
    have hread := hall [path'.tracking id]
    rw [honly, honly, if_pos rfl, if_neg (mt SlotPath.same_iff.2 hnot)] at hread
    cases hread

/-! ## §7  The map -/

/-- **The heap is a map with history.** After any operations, with `recent` those since the
heap was cleared last: a slot that none of them has registered is unknown to whoever reads
or sets it, and any other answers the level to which it was set last, or bottom if it was
not set. The size of an object that was tracked is the number of keys that were registered,
and any other has none. Two ways lead to one slot, that is, read the same after all
operations, exactly if they are the same field, the same element, or a field and an element
of which the name is the decimal text of the index. An operation that neither registers nor
sets a slot leaves what is read there, and the level that setting it answers, and one that
is asked of an object leaves the records of all others. -/
theorem heap_history (history : List (HeapOperation L)) (id : Handle) :
    (∀ path,
      (¬Registered id path (recent history) →
        answer history (path.reading id) = .error (.unregistered (path.place id)) ∧
          ∀ level, answer history (path.setting id level) =
            .error (.unregistered (path.place id))) ∧
      (Registered id path (recent history) →
        answer history (path.reading id) =
            .ok (.level ((lastSet? id path (recent history)).getD bottom)) ∧
          ∀ level, answer history (path.setting id level) =
            .ok (.level ((lastSet? id path (recent history)).getD bottom)))) ∧
    (¬Tracked id (recent history) →
      answer history (.size id) = .error (.unregistered (.record id))) ∧
    (Tracked id (recent history) → ∃ keys : Finset String,
      (∀ key, key ∈ keys ↔ Registered id (.field key) (recent history)) ∧
        answer history (.size id) = .ok (.count keys.card)) ∧
    (∀ path path', Same path path' ↔ ∀ history : List (HeapOperation L),
      (answer history (path.reading id)).toOption =
        (answer history (path'.reading id)).toOption) ∧
    ∀ op, op.isClear = false →
      (∀ path, ¬op.Registers id path → op.setLevel? id path = none →
        answer (op :: history) (path.reading id) = answer history (path.reading id) ∧
          ∀ level, answer (op :: history) (path.setting id level) =
            answer history (path.setting id level)) ∧
      ∀ object, op.object? = some object → id ≠ object →
        (after (op :: history)).record? id = (after history).record? id := by
  refine ⟨fun path => ?_, size_of_not_tracked, size_of_tracked, fun _ _ => same_iff_reading,
    fun op hclear => ⟨fun path hunregistered hunset => ?_, fun object hobject hne => ?_⟩⟩
  · have haccounts : Accounts id path (recent history) :=
      accounts id path not_isClear_of_mem_recent
    refine ⟨fun hnot => ?_, fun hregistered => ?_⟩
    · have hlevel := (haccounts.unregistered hnot).1
      rw [after_recent] at hlevel
      exact answer_of_no_level hlevel
    · have hlevel := haccounts.registered hregistered
      rw [after_recent] at hlevel
      exact answer_of_level hlevel
  · have hlevel : (after (op :: history)).level? id path.key =
        (after history).level? id path.key := by
      cases affects (after history) op id path hclear with
      | registers hregisters => exact absurd hregisters hunregistered
      | sets _ _ hset => rw [hunset] at hset; cases hset
      | leaves _ _ hlevel => exact hlevel
    exact answer_congr hlevel
  · exact record?_perform_of_ne (after history) hobject hne

section Witness

/-- After the heap was cleared an array is tracked, a field of it is set that is also its
second element, and the array grows. -/
def growingArray : List (HeapOperation TwoLevel) :=
  [.trackArray ⟨7⟩ 3, .setField ⟨7⟩ "1" .high, .trackField ⟨7⟩ "01", .trackArray ⟨7⟩ 2, .clear,
    .setField ⟨7⟩ "a" .high, .trackField ⟨7⟩ "a"]

theorem heap_history_growingArray :
    Same (.field "1") (.element 1) ∧ ¬Same (.field "01") (.element 1) ∧
      answer growingArray (.elementLevel ⟨7⟩ 1) = .ok (.level .high) ∧
      answer growingArray (.setField ⟨7⟩ "01" .high) = .ok (.level .low) ∧
      answer growingArray (.fieldLevel ⟨7⟩ "a") = .error (.unregistered (.field ⟨7⟩ "a")) ∧
      answer growingArray (.size ⟨7⟩) = .ok (.count 4) ∧
      answer growingArray (.size ⟨8⟩) = .error (.unregistered (.record ⟨8⟩)) ∧
      answer (.setField ⟨7⟩ "01" .high :: growingArray) (.elementLevel ⟨7⟩ 1) =
        .ok (.level .high) ∧
      (after (.trackArray ⟨8⟩ 2 :: growingArray)).record? ⟨7⟩ =
        (after growingArray).record? ⟨7⟩ := by
  obtain ⟨hslots, -, hsize, hsame, hothers⟩ := heap_history growingArray ⟨7⟩
  have hone : Same (.field "1") (.element 1) := by decide
  have hother : ¬Same (.field "01") (.element 1) := by decide
  have hpart : recent growingArray = [.trackArray ⟨7⟩ 3, .setField ⟨7⟩ "1" .high,
      .trackField ⟨7⟩ "01", .trackArray ⟨7⟩ 2] := rfl
  have hread := ((hslots (.element 1)).2 ⟨_, List.mem_cons_self, rfl, 1, by decide, .refl _⟩).1
  refine ⟨hone, hother, ?_, ?_, ?_, ?_, ?_, ?_, ?_⟩
  · exact hread
  · exact ((hslots (.field "01")).2 ⟨.trackField ⟨7⟩ "01", by simp [hpart], rfl, .refl _⟩).2 .high
  · exact ((hslots (.field "a")).1 (by decide)).1
  · obtain ⟨keys, hkeys, hcount⟩ := hsize (Or.inl rfl)
    have hfour : keys = {"0", "1", "2", "01"} := by
      ext key
      rw [hkeys, hpart]
      have htwo : (∃ index < (2 : UInt64), Same (.element index) (.field key)) ↔
          key ∈ ["0", "1"] := mem_keys_below.symm
      have hthree : (∃ index < (3 : UInt64), Same (.element index) (.field key)) ↔
          key ∈ ["0", "1", "2"] := mem_keys_below.symm
      simp only [Registered, Registers, List.exists_mem_cons_iff, htwo, hthree]
      simp only [SlotPath.same_iff, SlotPath.key, List.mem_cons, Finset.mem_insert,
        Finset.mem_singleton, List.not_mem_nil]
      clear * -
      grind
    rw [hfour] at hcount
    exact hcount
  · exact (heap_history growingArray ⟨8⟩).2.1 (by simp [hpart, Tracked, Tracks])
  · have hnone : (HeapOperation.setField ⟨7⟩ "01" TwoLevel.high).setLevel? ⟨7⟩ (.element 1) =
        none := by decide
    exact ((hothers _ rfl).1 (.element 1) (by decide) hnone).1.trans hread
  · exact (hothers _ rfl).2 ⟨8⟩ rfl (by decide)

end Witness

end HeapOperation

end InfoFlow
