import InfoFlow.Proofs.Session.Rules

/-!
# The footprint of an operation

An operation names the heap slots that it has to do with: those it registers or sets
(`changes`) and those it reads (`reads`). Only a slot that it changes ends at another
level (`level?_perform`), and nothing but the slots it names decides what it answers,
what becomes of the session, and what becomes of any other slot (`perform_congr`).
This holds slot by slot, also within a record that several sessions share. It does not
hold of handles: minting one asks for all the records there are, so operations that
mint are left out.
-/

namespace InfoFlow

open Level (join)

variable {L : Type}

/-! ## §1  The slots of an operation -/

namespace Operation

/-- The slots that an operation registers or sets, whether or not it succeeds. -/
def changes : Operation L → List (Handle × String)
  | trackField id field => [(id, field)]
  | trackArray id length => (List.range length.toNat).map fun index => (id, toString index)
  | writeField id field _ => [(id, field)]
  | writeElement id index _ => [(id, indexKey index)]
  | labelField id field _ => [(id, field)]
  | _ => []

/-- The slots that an operation reads. -/
def reads : Operation L → List (Handle × String)
  | readField id field => [(id, field)]
  | readElement id index => [(id, indexKey index)]
  | _ => []

/-- The slots that an operation has to do with. -/
def names (op : Operation L) : List (Handle × String) := op.changes ++ op.reads

/-- Whether an operation mints a handle. -/
def mints : Operation L → Bool
  | newObject => true
  | newArray _ => true
  | _ => false

/-- The slot that an operation reads or sets is one that it names. -/
theorem mem_names_of_slot? {op : Operation L} {id : Handle} {key : String} {place : Place}
    (h : op.slot? = some (id, key, place)) : (id, key) ∈ op.names := by
  cases op with
  | readField | readElement | writeField | writeElement | labelField =>
      cases h
      exact List.mem_singleton_self _
  | _ => cases h

end Operation

/-! ## §2  Heaps that agree on a region -/

/-- Two heaps have the same slots of `region`, at the same levels. They may differ in
all else, also in which records they have and of which kind these are. -/
def Heap.Agree (region : Handle × String → Prop) (heap₁ heap₂ : Heap L) : Prop :=
  ∀ id key, region (id, key) → heap₁.level? id key = heap₂.level? id key

namespace Heap

variable {region : Handle × String → Prop} {heap heap' heap₁ heap₂ heap₁' : Heap L}

theorem Agree.refl (region : Handle × String → Prop) (heap : Heap L) : Agree region heap heap :=
  fun _ _ _ => rfl

theorem Agree.symm (h : Agree region heap₁ heap₂) : Agree region heap₂ heap₁ :=
  fun id key hslot => (h id key hslot).symm

theorem Agree.trans (h : Agree region heap heap₁) (h' : Agree region heap₁ heap₂) :
    Agree region heap heap₂ :=
  fun id key hslot => (h id key hslot).trans (h' id key hslot)

/-! ### Registration -/

variable [Level L] {slots : List (Handle × String)} {tracked tracked₁ tracked₂ : Heap L}

/-- In `tracked` these slots are registered, the new ones at `bottom`; all else is as in
`heap`. -/
def Registers (slots : List (Handle × String)) (heap tracked : Heap L) : Prop :=
  ∀ id key, tracked.level? id key =
    if (id, key) ∈ slots then some ((heap.level? id key).getD Level.bottom)
    else heap.level? id key

theorem registers_trackObject (heap : Heap L) (id : Handle) :
    Registers [] heap (heap.trackObject id) := by
  intro id' key
  rw [level?_trackObject, if_neg List.not_mem_nil]

theorem registers_trackField (heap : Heap L) (id : Handle) (field : String) :
    Registers [(id, field)] heap (heap.trackField id field) := by
  intro id' key
  simp only [level?_trackField, List.mem_singleton, Prod.mk.injEq]
  split
  · rename_i heq
    rw [heq.1, heq.2]
  · rfl

theorem registers_trackElement (heap : Heap L) (id : Handle) (index : UInt64) :
    Registers [(id, indexKey index)] heap (heap.trackElement id index) := by
  intro id' key
  simp only [level?_trackElement, List.mem_singleton, Prod.mk.injEq]
  split
  · rename_i heq
    rw [heq.1, heq.2]
  · rfl

theorem registers_trackArray (heap : Heap L) (id : Handle) (length : UInt64) :
    Registers ((List.range length.toNat).map fun index => (id, toString index)) heap
      (heap.trackArray id length) := by
  intro id' key
  have hiff : (id', key) ∈ (List.range length.toNat).map (fun index => (id, toString index)) ↔
      id' = id ∧ key ∈ (List.range length.toNat).map (toString ·) := by
    simp only [List.mem_map, Prod.mk.injEq]
    constructor
    · rintro ⟨index, hindex, rfl, rfl⟩
      exact ⟨rfl, index, hindex, rfl⟩
    · rintro ⟨rfl, index, hindex, rfl⟩
      exact ⟨index, hindex, rfl, rfl⟩
  simp only [level?_trackArray, hiff]
  split
  · rename_i heq
    rw [heq.1]
  · rfl

/-- Registering slots outside the region leaves the region as it is. -/
theorem Registers.agree (h : Registers slots heap tracked) (hoff : ∀ slot ∈ slots, ¬ region slot) :
    Agree region heap tracked := by
  intro id key hslot
  rw [h, if_neg]
  exact fun hmem => hoff _ hmem hslot

/-- Registering slots in two heaps that agree leaves them agreed. -/
theorem Registers.congr (h₁ : Registers slots heap₁ tracked₁) (h₂ : Registers slots heap₂ tracked₂)
    (hagree : Agree region heap₁ heap₂) : Agree region tracked₁ tracked₂ := by
  intro id key hslot
  rw [h₁, h₂, hagree id key hslot]

/-! ### Setting -/

omit [Level L] in
/-- Setting a slot outside the region leaves the region as it is. -/
theorem agree_setSlot? {id : Handle} {key : String} {level previous : L}
    (hoff : ¬ region (id, key)) (set : heap.setSlot? id key level = some (previous, heap')) :
    Agree region heap heap' := by
  intro id' key' hslot
  rw [(setSlot?_eq_some set).2, if_neg]
  rintro ⟨rfl, rfl⟩
  exact hoff hslot

omit [Level L] in
/-- A slot of the region can be set in both heaps or in none, and they still agree. -/
theorem Agree.setSlot? (h : Agree region heap₁ heap₂) {id : Handle} {key : String}
    (hslot : region (id, key)) {level previous : L}
    (set : heap₁.setSlot? id key level = some (previous, heap₁')) :
    ∃ heap₂', heap₂.setSlot? id key level = some (previous, heap₂') ∧
      Agree region heap₁' heap₂' := by
  obtain ⟨hprevious, hlevels⟩ := setSlot?_eq_some set
  rw [h id key hslot] at hprevious
  obtain ⟨heap₂', set₂⟩ := exists_setSlot? hprevious level
  obtain ⟨-, hlevels₂⟩ := setSlot?_eq_some set₂
  refine ⟨heap₂', set₂, fun id' key' hslot' => ?_⟩
  rw [hlevels, hlevels₂, h id' key' hslot']

/-! A session registers the slot that it is about to set, if its policy says so. -/

theorem Registers.agree_setSlot? {id : Handle} {key : String} {level previous : L} {auto : Bool}
    (h : Registers [(id, key)] heap tracked) (hoff : ¬ region (id, key))
    (set : (if auto then tracked else heap).setSlot? id key level = some (previous, heap')) :
    Agree region heap heap' := by
  have hregister : Agree region heap (if auto then tracked else heap) := by
    split
    · exact h.agree (List.forall_mem_singleton.2 hoff)
    · exact .refl region heap
  exact hregister.trans (Heap.agree_setSlot? hoff set)

theorem Registers.congr_setSlot? {id : Handle} {key : String} {level previous : L} {auto : Bool}
    (h₁ : Registers [(id, key)] heap₁ tracked₁) (h₂ : Registers [(id, key)] heap₂ tracked₂)
    (hagree : Agree region heap₁ heap₂) (hslot : region (id, key))
    (set : (if auto then tracked₁ else heap₁).setSlot? id key level = some (previous, heap₁')) :
    ∃ heap₂', (if auto then tracked₂ else heap₂).setSlot? id key level = some (previous, heap₂') ∧
      Agree region heap₁' heap₂' := by
  have hregister : Agree region (if auto then tracked₁ else heap₁)
      (if auto then tracked₂ else heap₂) := by
    split
    · exact h₁.congr h₂ hagree
    · exact hagree
  exact hregister.setSlot? hslot set

end Heap

/-! ## §3  What an operation does, and what it depends on -/

namespace Operation

open Heap (Agree registers_trackObject registers_trackField registers_trackElement
  registers_trackArray)

variable [Level L] {region : Handle × String → Prop} {s s' : Session L}
  {heap heap' heap₁ heap₂ heap₁' : Heap L} {op : Operation L} {reply : Reply L} {e : Fault}

theorem Succeeds.agree (h : Succeeds s heap op reply s' heap') (hmints : op.mints = false)
    (hoff : ∀ slot ∈ op.changes, ¬ region slot) : Agree region heap heap' := by
  cases h with
  | trackObject id => exact (registers_trackObject heap id).agree hoff
  | trackField id field => exact (registers_trackField heap id field).agree hoff
  | trackArray id length => exact (registers_trackArray heap id length).agree hoff
  | newObject => cases hmints
  | newArray length => cases hmints
  | writeField set =>
      exact (registers_trackField heap _ _).agree_setSlot? (hoff _ (List.mem_singleton_self _)) set
  | writeElement set =>
      exact (registers_trackElement heap _ _).agree_setSlot?
        (hoff _ (List.mem_singleton_self _)) set
  | labelField set =>
      exact (registers_trackField heap _ _).agree_setSlot? (hoff _ (List.mem_singleton_self _)) set
  | _ => exact .refl region _

/-- **An operation changes no slot but those that it names as changed.** -/
theorem agree_perform (s : Session L) (heap : Heap L) (hmints : op.mints = false)
    (hoff : ∀ slot ∈ op.changes, ¬ region slot) :
    Agree region heap (op.perform s heap).state.2 := by
  rcases state_cases op s heap with hsame | ⟨reply, hrule⟩
  · rw [hsame]
    exact .refl region heap
  · exact hrule.agree hmints hoff

/-- An operation that succeeds on one heap succeeds on any heap that agrees with it on
the slots named, with the same answer, and leaves the two as much agreed as they were. -/
theorem Succeeds.congr (h : Succeeds s heap₁ op reply s' heap₁') (hmints : op.mints = false)
    (hagree : Agree region heap₁ heap₂) (hin : ∀ slot ∈ op.names, region slot) :
    ∃ heap₂', Succeeds s heap₂ op reply s' heap₂' ∧ Agree region heap₁' heap₂' := by
  cases h with
  | declare name => exact ⟨heap₂, .declare name, hagree⟩
  | read found => exact ⟨heap₂, .read found, hagree⟩
  | write found admitted => exact ⟨heap₂, .write found admitted, hagree⟩
  | label found => exact ⟨heap₂, .label found, hagree⟩
  | trackObject id =>
      exact ⟨_, .trackObject id,
        (registers_trackObject _ id).congr (registers_trackObject _ id) hagree⟩
  | trackField id field =>
      exact ⟨_, .trackField id field,
        (registers_trackField _ id field).congr (registers_trackField _ id field) hagree⟩
  | trackArray id length =>
      exact ⟨_, .trackArray id length,
        (registers_trackArray _ id length).congr (registers_trackArray _ id length) hagree⟩
  | newObject => cases hmints
  | newArray length => cases hmints
  | readField found =>
      rw [hagree _ _ (hin _ (mem_names_of_slot? rfl))] at found
      exact ⟨heap₂, .readField found, hagree⟩
  | readElement found =>
      rw [hagree _ _ (hin _ (mem_names_of_slot? rfl))] at found
      exact ⟨heap₂, .readElement found, hagree⟩
  | writeField set =>
      obtain ⟨heap₂', set₂, hagree'⟩ := (registers_trackField heap₁ _ _).congr_setSlot?
        (registers_trackField heap₂ _ _) hagree (hin _ (mem_names_of_slot? rfl)) set
      exact ⟨heap₂', .writeField set₂, hagree'⟩
  | writeElement set =>
      obtain ⟨heap₂', set₂, hagree'⟩ := (registers_trackElement heap₁ _ _).congr_setSlot?
        (registers_trackElement heap₂ _ _) hagree (hin _ (mem_names_of_slot? rfl)) set
      exact ⟨heap₂', .writeElement set₂, hagree'⟩
  | labelField set =>
      obtain ⟨heap₂', set₂, hagree'⟩ := (registers_trackField heap₁ _ _).congr_setSlot?
        (registers_trackField heap₂ _ _) hagree (hin _ (mem_names_of_slot? rfl)) set
      exact ⟨heap₂', .labelField set₂, hagree'⟩
  | enter entered => exact ⟨heap₂, .enter entered, hagree⟩
  | enterOn read entered => exact ⟨heap₂, .enterOn read entered, hagree⟩
  | exit left => exact ⟨heap₂, .exit left, hagree⟩
  | checkBelowTop found below => exact ⟨heap₂, .checkBelowTop found below, hagree⟩
  | checkSink found below => exact ⟨heap₂, .checkSink found below, hagree⟩
  | bindArgument passed found => exact ⟨heap₂, .bindArgument passed found, hagree⟩
  | returnLocal found => exact ⟨heap₂, .returnLocal found, hagree⟩
  | returnConstant => exact ⟨heap₂, .returnConstant, hagree⟩
  | checkClose balanced => exact ⟨heap₂, .checkClose balanced, hagree⟩

/-- An operation fails the same on heaps that agree on the slots named. -/
theorem Fails.congr (h : Fails s heap₁ op e) (hagree : Agree region heap₁ heap₂)
    (hin : ∀ slot ∈ op.names, region slot) : Fails s heap₂ op e := by
  cases h with
  | undeclared needs absent => exact .undeclared needs absent
  | unregistered slot absent strict =>
      rw [hagree _ _ (hin _ (mem_names_of_slot? slot))] at absent
      exact .unregistered slot absent strict
  | write found preExisting raised => exact .write found preExisting raised
  | checkBelowTop found top => exact .checkBelowTop found top
  | checkSink found above => exact .checkSink found above
  | enter full => exact .enter full
  | unread unread => exact .unread unread
  | enterOn read full => exact .enterOn read full
  | exit left => exact .exit left
  | bindArgument missing => exact .bindArgument missing
  | checkClose unbalanced => exact .checkClose unbalanced

/-- **An operation depends on no slot but those that it names**: on heaps that agree on
a region with these, it answers the same, leaves the same session, and leaves heaps that
agree on the region. -/
theorem perform_congr (hmints : op.mints = false) (hagree : Agree region heap₁ heap₂)
    (hin : ∀ slot ∈ op.names, region slot) :
    (op.perform s heap₁).result = (op.perform s heap₂).result ∧
      (op.perform s heap₁).state.1 = (op.perform s heap₂).state.1 ∧
      Agree region (op.perform s heap₁).state.2 (op.perform s heap₂).state.2 := by
  rcases succeeds_or_fails s heap₁ op with ⟨reply, s', heap₁', hrule⟩ | ⟨e, hfault⟩
  · obtain ⟨heap₂', hrule₂, hagree'⟩ := hrule.congr hmints hagree hin
    obtain ⟨hresult, hstate⟩ := perform_of_succeeds hrule
    obtain ⟨hresult₂, hstate₂⟩ := perform_of_succeeds hrule₂
    rw [hresult, hresult₂, hstate, hstate₂]
    exact ⟨rfl, rfl, hagree'⟩
  · obtain ⟨hresult, hstate⟩ := perform_of_fails hfault
    obtain ⟨hresult₂, hstate₂⟩ := perform_of_fails (hfault.congr hagree hin)
    rw [hresult, hresult₂, hstate, hstate₂]
    exact ⟨rfl, rfl, hagree⟩

end Operation

end InfoFlow
