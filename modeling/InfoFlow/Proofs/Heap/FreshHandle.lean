import Mathlib.Data.Finset.Card
import Mathlib.Order.Interval.Finset.Nat
import InfoFlow.Proofs.Heap.History

/-!
# Fresh handles

The heap mints handles from a counter and passes over those that are tracked already, as
callers may bring their own. This comes to an end before the counter does, and at the least
handle that is free (`allocate_fresh`). The reason is that no handle below the counter is free
(`Dense`): the counter moves past tracked handles only, and no record is taken away but by
clearing the heap, which sets the counter back.
-/

namespace InfoFlow

variable {L : Type}

namespace Heap

variable {heap heap' : Heap L} {id : Handle} {kind : RecordKind}

/-! ## §1  Counting records -/

/-- The handles that are tracked. -/
def handles (heap : Heap L) : Finset Handle := heap.records.keys.toFinset

theorem mem_handles : id ∈ heap.handles ↔ heap.contains id = true := by
  rw [handles, List.mem_toFinset, Std.ExtTreeMap.mem_keys]
  rfl

theorem card_handles (heap : Heap L) : heap.handles.card = heap.recordCount := by
  rw [handles, List.toFinset_card_of_nodup Std.ExtTreeMap.nodup_keys, Std.ExtTreeMap.length_keys]
  rfl

theorem recordCount_le (h : ∀ id, heap.contains id = true → heap'.contains id = true) :
    heap.recordCount ≤ heap'.recordCount := by
  rw [← card_handles, ← card_handles]
  refine Finset.card_le_card ?_
  intro id hid
  exact mem_handles.2 (h id (mem_handles.1 hid))

/-- Where all handles from 1 to `n` are tracked, there are `n` records at least. -/
theorem le_recordCount {n : Nat} (hn : n < 2 ^ 64)
    (h : ∀ id : Handle, 1 ≤ id.raw.toNat → id.raw.toNat ≤ n → heap.contains id = true) :
    n ≤ heap.recordCount := by
  have hraw : ∀ i ∈ Finset.Icc 1 n, (UInt64.ofNat i).toNat = i := by
    intro i hi
    exact UInt64.toNat_ofNat_of_lt' (Nat.lt_of_le_of_lt (Finset.mem_Icc.1 hi).2 hn)
  have hcard : (Finset.Icc 1 n).card ≤ heap.handles.card := by
    refine Finset.card_le_card_of_injOn (fun i => ⟨.ofNat i⟩) ?_ ?_
    · intro i hi
      refine mem_handles.2 (h _ ?_ ?_)
      · rw [hraw i hi]
        exact (Finset.mem_Icc.1 hi).1
      · rw [hraw i hi]
        exact (Finset.mem_Icc.1 hi).2
    · intro i hi j hj hij
      rw [← hraw i hi, ← hraw j hj, (Handle.mk.inj hij : UInt64.ofNat i = UInt64.ofNat j)]
  rwa [Nat.card_Icc, Nat.add_sub_cancel, card_handles] at hcard

/-! ## §2  The least free handle -/

/-- The least handle from 1 on that is not tracked. -/
structure LeastFree (heap : Heap L) (id : Handle) : Prop where
  positive : 1 ≤ id.raw.toNat
  free : heap.contains id = false
  below : ∀ other : Handle, 1 ≤ other.raw.toNat → other.raw.toNat < id.raw.toNat →
    heap.contains other = true

theorem LeastFree.record?_eq_none (h : heap.LeastFree id) : heap.record? id = none := by
  by_contra hnot
  have htracked := contains_iff.2 hnot
  rw [h.free] at htracked
  cases htracked

/-- One of the handles up to the number of records, or the next one, is free. -/
theorem exists_leastFree (hroom : heap.recordCount + 1 < 2 ^ 64) :
    ∃ id, heap.LeastFree id ∧ id.raw.toNat ≤ heap.recordCount + 1 := by
  have hfree : ∃ n, ∃ id : Handle, id.raw.toNat = n ∧ 1 ≤ n ∧ n ≤ heap.recordCount + 1 ∧
      heap.contains id = false := by
    by_contra hnone
    refine absurd (le_recordCount hroom ?_) (Nat.not_succ_le_self _)
    intro id hpositive hle
    by_contra hnot
    exact hnone ⟨_, id, rfl, hpositive, hle, Bool.eq_false_iff.2 hnot⟩
  classical
  obtain ⟨id, hid, hpositive, hle, hcontains⟩ := Nat.find_spec hfree
  refine ⟨id, ⟨hid ▸ hpositive, hcontains, ?_⟩, hid ▸ hle⟩
  intro other hother hbelow
  by_contra hnot
  have hsmaller := Nat.find_min hfree (hid ▸ hbelow)
  refine hsmaller ⟨other, rfl, hother, ?_, Bool.eq_false_iff.2 hnot⟩
  omega

/-! ## §3  The search -/

/-- `Search heap handle found`: going from `handle` to the next one as long as it is tracked
leads to `found`, and the counter stays within its bounds on the way. There is no limit to the
tries here, so that a search which never ended would have no `found`. -/
inductive Search (heap : Heap L) : UInt64 → UInt64 → Prop
  | found {handle : UInt64} (free : heap.contains ⟨handle⟩ = false) : Search heap handle handle
  | next {handle found : UInt64} (tracked : heap.contains ⟨handle⟩ = true)
      (room : handle.toNat + 1 < 2 ^ 64) (rest : Search heap (handle + 1) found) :
      Search heap handle found

theorem toNat_add_one {handle : UInt64} (room : handle.toNat + 1 < 2 ^ 64) :
    (handle + 1).toNat = handle.toNat + 1 := by
  rw [UInt64.toNat_add]
  exact Nat.mod_eq_of_lt room

theorem Search.le {handle found : UInt64} (h : heap.Search handle found) :
    handle.toNat ≤ found.toNat := by
  induction h with
  | found free => exact Nat.le_refl _
  | next tracked room rest ih =>
      rw [toNat_add_one room] at ih
      omega

/-- The search ends at the first free handle. -/
theorem search_of_free {handle found : UInt64} (hle : handle.toNat ≤ found.toNat)
    (free : heap.contains ⟨found⟩ = false)
    (tracked : ∀ other : UInt64, handle.toNat ≤ other.toNat → other.toNat < found.toNat →
      heap.contains ⟨other⟩ = true) : heap.Search handle found := by
  -- by the number of handles still to pass over
  induction hdistance : found.toNat - handle.toNat generalizing handle with
  | zero =>
      obtain rfl : handle = found := UInt64.toNat_inj.1 (by omega)
      exact .found free
  | succ distance ih =>
      have hlt : handle.toNat < found.toNat := by omega
      have hroom : handle.toNat + 1 < 2 ^ 64 := Nat.lt_of_le_of_lt hlt found.toNat_lt
      have hnext := toNat_add_one hroom
      refine .next (tracked handle (Nat.le_refl _) hlt) hroom (ih ?_ ?_ ?_)
      · omega
      · intro other hother hbelow
        exact tracked other (by omega) hbelow
      · omega

/-- The heap comes to the end of the search, if it tries long enough. -/
theorem Search.freeHandle_eq {handle found : UInt64} (h : heap.Search handle found) {tries : Nat}
    (htries : found.toNat ≤ handle.toNat + tries) : heap.freeHandle tries handle = found := by
  induction h generalizing tries with
  | found free =>
      cases tries with
      | zero => rfl
      | succ tries => simp [freeHandle, free]
  | next tracked room rest ih =>
      have hle := rest.le
      rw [toNat_add_one room] at hle ih
      cases tries with
      | zero => omega
      | succ tries =>
          rw [freeHandle, if_pos tracked]
          exact ih (by omega)

/-! ## §4  Minting a handle -/

/-- No handle below the counter is free. -/
structure Dense (heap : Heap L) : Prop where
  positive : 1 ≤ heap.nextHandle.toNat
  tracked : ∀ id : Handle, 1 ≤ id.raw.toNat → id.raw.toNat < heap.nextHandle.toNat →
    heap.contains id = true

/-- The heap mints `id`: the search for it ends, at the least free handle, and the counter
moves behind it without overflowing. It gets an empty record, and all others stay. -/
structure Mints (heap : Heap L) (kind : RecordKind) (id : Handle) : Prop where
  search : heap.Search heap.nextHandle id.raw
  least : heap.LeastFree id
  minted : (heap.allocate kind).1 = id
  counter : (heap.allocate kind).2.nextHandle.toNat = id.raw.toNat + 1
  record : (heap.allocate kind).2.record? id = some (.new kind)
  others : ∀ other ≠ id, (heap.allocate kind).2.record? other = heap.record? other

theorem dense_empty : (empty : Heap L).Dense where
  positive := Nat.le_refl 1
  tracked := by
    intro id hpositive hbelow
    exact absurd hbelow (Nat.not_lt.2 hpositive)

/-- **While there is room, a handle can be minted.** -/
theorem Dense.exists_mints (h : heap.Dense) (hroom : heap.recordCount < 2 ^ 64 - 2)
    (kind : RecordKind) : ∃ id, heap.Mints kind id := by
  have hsome : heap.recordCount + 1 < 2 ^ 64 := by omega
  obtain ⟨id, hleast, hle⟩ := exists_leastFree hsome
  have hcounter : heap.nextHandle.toNat ≤ id.raw.toNat := by
    by_contra hbehind
    have htracked := h.tracked id hleast.positive (Nat.lt_of_not_le hbehind)
    rw [hleast.free] at htracked
    cases htracked
  have hsearch : heap.Search heap.nextHandle id.raw := by
    refine search_of_free hcounter hleast.free ?_
    intro other hother hbelow
    exact hleast.below ⟨other⟩ (Nat.le_trans h.positive hother) hbelow
  have hminted : heap.freeHandle heap.recordCount heap.nextHandle = id.raw := by
    have hpositive := h.positive
    exact hsearch.freeHandle_eq (by omega)
  have hroom' : id.raw.toNat + 1 < 2 ^ 64 := by omega
  have hallocate : heap.allocate kind =
      (id, { heap.setRecord id (.new kind) with nextHandle := id.raw + 1 }) := by
    rw [allocate, hminted, recordOrNew, hleast.record?_eq_none, Option.getD_none]
  refine ⟨id, hsearch, hleast, ?_, ?_, ?_, ?_⟩
  · rw [hallocate]
  · rw [hallocate]
    exact toNat_add_one hroom'
  · rw [hallocate]
    show (heap.setRecord id (.new kind)).record? id = _
    rw [record?_setRecord, if_pos rfl]
  · intro other hne
    rw [hallocate]
    show (heap.setRecord id (.new kind)).record? other = _
    rw [record?_setRecord, if_neg hne]

theorem Mints.dense (h : heap.Mints kind id) : (heap.allocate kind).2.Dense where
  positive := by
    rw [h.counter]
    exact Nat.succ_pos _
  tracked := by
    intro other hpositive hbelow
    rw [contains_iff]
    by_cases hother : other = id
    · rw [hother, h.record]
      exact Option.some_ne_none _
    · rw [h.others other hother, ← contains_iff]
      have hne : other.raw.toNat ≠ id.raw.toNat := by
        intro heq
        exact hother (congrArg Handle.mk (UInt64.toNat_inj.1 heq))
      rw [h.counter] at hbelow
      exact h.least.below other hpositive (by omega)

theorem Dense.of_nextHandle_eq (h : heap.Dense) (hnext : heap'.nextHandle = heap.nextHandle)
    (hcontains : ∀ id, heap.contains id = true → heap'.contains id = true) : heap'.Dense where
  positive := by
    rw [hnext]
    exact h.positive
  tracked := by
    intro id hpositive hbelow
    rw [hnext] at hbelow
    exact hcontains id (h.tracked id hpositive hbelow)

end Heap

/-! ## §5  All operations -/

namespace HeapOperation

variable [Level L] {heap : Heap L} {op : HeapOperation L}

/-- No operation but clearing loses a record. -/
theorem contains_perform (hclear : op.isClear = false) (id : Handle)
    (h : heap.contains id = true) : (op.perform heap).2.contains id = true :=
  Heap.contains_iff.2 ((record?_perform heap op id hclear).2 (Or.inr (Heap.contains_iff.1 h)))

/-- The counter moves when a handle is minted, and when the heap is cleared. -/
theorem nextHandle_perform (op : HeapOperation L) (heap : Heap L) :
    (∃ kind, op = .allocate kind) ∨ op = .clear ∨
      op.isClear = false ∧ (op.perform heap).2.nextHandle = heap.nextHandle := by
  have hsetting : ∀ (object : Handle) (path : SlotPath) (level : L),
      ((path.setting object level).perform heap).2.nextHandle = heap.nextHandle := by
    intro object path level
    rcases setting_state heap object path level with hsame | ⟨record, -, hset⟩
    · rw [hsame]
    · rw [hset]
      rfl
  cases op with
  | allocate kind => exact Or.inl ⟨kind, rfl⟩
  | clear => exact Or.inr (Or.inl rfl)
  | trackObject object =>
      refine Or.inr (Or.inr ⟨rfl, ?_⟩)
      show (heap.trackObject object).nextHandle = heap.nextHandle
      unfold Heap.trackObject
      split <;> rfl
  | setField object name level => exact Or.inr (Or.inr ⟨rfl, hsetting object (.field name) level⟩)
  | setElement array index level => exact Or.inr (Or.inr ⟨rfl, hsetting array (.element index) level⟩)
  | _ => exact Or.inr (Or.inr ⟨rfl, rfl⟩)

/-- **An operation leaves no handle below the counter free.** -/
theorem dense_perform (h : heap.Dense) (hroom : heap.recordCount < 2 ^ 64 - 2)
    (op : HeapOperation L) : (op.perform heap).2.Dense := by
  rcases nextHandle_perform op heap with ⟨kind, rfl⟩ | rfl | ⟨hclear, hnext⟩
  · obtain ⟨id, hmints⟩ := h.exists_mints hroom kind
    exact hmints.dense
  · exact Heap.dense_empty
  · exact h.of_nextHandle_eq hnext (contains_perform hclear)

/-- A heap that has room now has had it since it was cleared. -/
theorem dense_after {history : List (HeapOperation L)}
    (hroom : (after history).recordCount < 2 ^ 64 - 2) : (after history).Dense := by
  induction history with
  | nil => exact Heap.dense_empty
  | cons op earlier ih =>
      cases hclear : op.isClear with
      | true =>
          cases op with
          | clear => exact Heap.dense_empty
          | _ => cases hclear
      | false =>
          have hcount : (after earlier).recordCount ≤ (after (op :: earlier)).recordCount :=
            Heap.recordCount_le (contains_perform hclear)
          have hearlier := Nat.lt_of_le_of_lt hcount hroom
          exact dense_perform (ih hearlier) hearlier op

/-- **Handles are fresh.** After any operations, as long as the heap holds fewer than
`2 ^ 64 - 2` records: minting a handle comes to an end and does not overflow the counter. The
handle is the least one from 1 on that is not tracked; it gets an empty record of the kind asked
for, and all other records stay as they are. None of the operations since the heap was cleared
last has minted this handle or registered it. -/
theorem allocate_fresh (history : List (HeapOperation L)) (kind : RecordKind)
    (hroom : (after history).recordCount < 2 ^ 64 - 2) :
    ∃ id, (after history).Mints kind id ∧
      answer history (.allocate kind) = .ok (.handle id) ∧ ¬Tracked id (recent history) := by
  obtain ⟨id, hmints⟩ := (dense_after hroom).exists_mints hroom kind
  refine ⟨id, hmints, ?_, ?_⟩
  · show Except.ok (HeapReply.handle ((after history).allocate kind).1) = _
    rw [hmints.minted]
  · rw [tracked_iff not_isClear_of_mem_recent, after_recent, ← Heap.contains_iff,
      hmints.least.free]
    exact Bool.false_ne_true

section Witness

/-- After the heap was cleared, a caller brings handles of its own, and one is minted between
them. -/
def suppliedHandles : List (HeapOperation TwoLevel) :=
  [.trackField ⟨4⟩ "a", .allocate .array, .trackArray ⟨2⟩ 3, .trackObject ⟨1⟩, .clear,
    .allocate .object, .trackObject ⟨7⟩]

/-- The handle 3 was minted and 4 is the caller's, so 5 comes next; 7 is free again. -/
theorem allocate_fresh_suppliedHandles :
    (after suppliedHandles).recordCount < 2 ^ 64 - 2 ∧
      (after suppliedHandles).nextHandle = 4 ∧
      answer suppliedHandles (.allocate .object) = .ok (.handle ⟨5⟩) ∧
      (after suppliedHandles).Mints .object ⟨5⟩ ∧
      ¬Tracked ⟨5⟩ (recent suppliedHandles) := by
  have hcount : (after suppliedHandles).recordCount = 4 := by rfl
  have hroom : (after suppliedHandles).recordCount < 2 ^ 64 - 2 := by
    rw [hcount]
    decide
  have hfive : answer suppliedHandles (.allocate .object) = .ok (.handle ⟨5⟩) := by rfl
  obtain ⟨id, hmints, hanswer, hfresh⟩ := allocate_fresh suppliedHandles .object hroom
  rw [hfive, Except.ok.injEq, HeapReply.handle.injEq] at hanswer
  subst hanswer
  exact ⟨hroom, by rfl, hfive, hmints, hfresh⟩

end Witness

end HeapOperation

end InfoFlow
