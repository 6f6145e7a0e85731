import InfoFlow.Level.Chain
import InfoFlow.Monitor
import InfoFlow.Proofs.Session.Footprint
import InfoFlow.Proofs.Session.Run

/-!
# Interleavings of independent sessions

Sessions on one heap carry out their operations in some order, each in its own. When
no session changes a slot that another one names (`Independent`), a session cannot tell
that the others are there: it answers what it would answer alone, and the slots it names
end as they would then (`serve_sees`). So the order does not matter
(`interleavings_agree`). The slots of one record may belong to different sessions, and
any of them may be the first to track it. Of which kind the record is then does depend on
the order; its slots do not.
-/

namespace InfoFlow

open Heap (Agree)

variable {L : Type}

/-! ## §1  Requests -/

/-- The entries of a list that are marked with `key`, in their order. -/
def ofKey {α : Type} (key : String) (marked : List (String × α)) : List α :=
  marked.filterMap fun entry => if entry.1 = key then some entry.2 else none

section OfKey

variable {α : Type} {key key' : String}

@[simp] theorem ofKey_cons_self (a : α) (marked : List (String × α)) :
    ofKey key ((key, a) :: marked) = a :: ofKey key marked := by
  simp [ofKey]

theorem ofKey_cons_of_ne (h : key' ≠ key) (a : α) (marked : List (String × α)) :
    ofKey key ((key', a) :: marked) = ofKey key marked := by
  simp [ofKey, h]

theorem mem_ofKey {a : α} {marked : List (String × α)} :
    a ∈ ofKey key marked ↔ (key, a) ∈ marked := by
  simp only [ofKey, List.mem_filterMap]
  constructor
  · rintro ⟨⟨key', a'⟩, hmem, hsome⟩
    split at hsome
    · rename_i heq
      cases heq
      cases hsome
      exact hmem
    · cases hsome
  · intro hmem
    exact ⟨(key, a), hmem, if_pos rfl⟩

end OfKey

variable [Level L]

/-- What operations answer, carried out one after the other by one session alone. -/
def Operation.answers : Session L × Heap L → List (Operation L) → List (Except Fault (Reply L))
  | _, [] => []
  | state, op :: ops =>
      let o := op.perform state.1 state.2
      o.result :: answers o.state ops

namespace Monitor

/-- Carry out operations, each in the session that it is marked with, and mark the
answers the same way. What is marked with no open session is passed over. -/
def serve (m : Monitor L) :
    List (String × Operation L) → Monitor L × List (String × Except Fault (Reply L))
  | [] => (m, [])
  | (key, op) :: requests =>
      match m.sessions[key]? with
      | none => m.serve requests
      | some opened =>
          let o := m.perform key opened op
          let (m, answers) := o.state.serve requests
          (m, (key, o.result) :: answers)

variable {m : Monitor L} {key key' : String} {opened : OpenSession L} {op : Operation L}
  {requests : List (String × Operation L)} {number : Nat} {region : Handle × String → Prop}

theorem serve_cons_of_none (h : m.sessions[key]? = none) :
    m.serve ((key, op) :: requests) = m.serve requests := by
  rw [serve]
  simp only [h]

theorem serve_cons_of_some (h : m.sessions[key]? = some opened) :
    m.serve ((key, op) :: requests) =
      (((m.perform key opened op).state.serve requests).1,
        (key, (m.perform key opened op).result) ::
          ((m.perform key opened op).state.serve requests).2) := by
  rw [serve]
  simp only [h]

/-! ## §2  What requests leave alone -/

theorem agree_perform (m : Monitor L) (key : String) (opened : OpenSession L) (number : Nat)
    (hmints : op.mints = false) (hoff : ∀ slot ∈ op.changes, ¬ region slot) :
    Agree region (m.heap number) ((m.perform key opened op).state.heap number) := by
  rw [heap_perform]
  split
  · rename_i heq
    rw [heq]
    exact Operation.agree_perform opened.session _ hmints hoff
  · exact .refl region _

/-- Slots that no request changes stay as they are. -/
theorem agree_serve (hmints : ∀ request ∈ requests, request.2.mints = false)
    (hoff : ∀ request ∈ requests, ∀ slot ∈ request.2.changes, ¬ region slot) :
    Agree region (m.heap number) ((m.serve requests).1.heap number) := by
  induction requests generalizing m with
  | nil => exact .refl region _
  | cons request requests ih =>
      obtain ⟨key, op⟩ := request
      rw [List.forall_mem_cons] at hmints hoff
      cases hopen : m.sessions[key]? with
      | none =>
          rw [serve_cons_of_none hopen]
          exact ih hmints.2 hoff.2
      | some opened =>
          rw [serve_cons_of_some hopen]
          exact (agree_perform m key opened number hmints.1 hoff.1).trans (ih hmints.2 hoff.2)

/-- A session that gets no request answers nothing and stays as it is. -/
theorem serve_of_ne (h : ∀ request ∈ requests, request.1 ≠ key) :
    ofKey key (m.serve requests).2 = [] ∧
      (m.serve requests).1.sessions[key]? = m.sessions[key]? := by
  induction requests generalizing m with
  | nil => exact ⟨rfl, rfl⟩
  | cons request requests ih =>
      obtain ⟨key', op⟩ := request
      rw [List.forall_mem_cons] at h
      cases hopen : m.sessions[key']? with
      | none =>
          rw [serve_cons_of_none hopen]
          exact ih h.2
      | some opened =>
          obtain ⟨hanswers, hsession⟩ := ih (m := (m.perform key' opened op).state) h.2
          rw [serve_cons_of_some hopen, ofKey_cons_of_ne h.1]
          refine ⟨hanswers, ?_⟩
          rw [hsession, sessions_perform, if_neg h.1.symm]

/-! ## §3  A session among others -/

/-- The session under `key` is at `state`, as far as it can tell: the heap is the one of
`state` on its region. -/
structure Sees (m : Monitor L) (number : Nat) (key : String) (region : Handle × String → Prop)
    (state : Session L × Heap L) : Prop where
  session_eq : m.sessions[key]? = some ⟨state.1, number⟩
  agree : Agree region (m.heap number) state.2

variable {state : Session L × Heap L}

/-- An operation of the session itself answers and does what it would alone. -/
theorem Sees.own (h : Sees m number key region state) (hmints : op.mints = false)
    (hin : ∀ slot ∈ op.names, region slot) :
    (m.perform key ⟨state.1, number⟩ op).result = (op.perform state.1 state.2).result ∧
      Sees (m.perform key ⟨state.1, number⟩ op).state number key region
        (op.perform state.1 state.2).state := by
  obtain ⟨hresult, hsession, hheap⟩ := Operation.perform_congr (s := state.1) hmints h.agree hin
  refine ⟨?_, ?_, ?_⟩
  · rw [result_perform]
    exact hresult
  · rw [sessions_perform, if_pos rfl, hsession]
  · rw [heap_perform, if_pos rfl]
    exact hheap

/-- An operation of another session outside the region is not noticed. -/
theorem Sees.other (h : Sees m number key region state) (hkey : key' ≠ key)
    (hmints : op.mints = false) (hoff : ∀ slot ∈ op.changes, ¬ region slot) :
    Sees (m.perform key' opened op).state number key region state where
  session_eq := by
    rw [sessions_perform, if_neg hkey.symm]
    exact h.session_eq
  agree := (agree_perform m key' opened number hmints hoff).symm.trans h.agree

/-- **A session on a region of its own does what it would do alone**, whatever other
sessions do between its operations. -/
theorem serve_sees (h : Sees m number key region state)
    (hmints : ∀ request ∈ requests, request.2.mints = false)
    (hin : ∀ request ∈ requests, request.1 = key → ∀ slot ∈ request.2.names, region slot)
    (hoff : ∀ request ∈ requests, request.1 ≠ key → ∀ slot ∈ request.2.changes, ¬ region slot) :
    ofKey key (m.serve requests).2 = Operation.answers state (ofKey key requests) ∧
      Sees (m.serve requests).1 number key region
        (Event.after state ((ofKey key requests).map .own)) := by
  induction requests generalizing m state with
  | nil => exact ⟨rfl, h⟩
  | cons request requests ih =>
      obtain ⟨key', op⟩ := request
      rw [List.forall_mem_cons] at hmints hin hoff
      -- the session takes the same step alone, or stays where it is
      by_cases hkey : key' = key
      · subst hkey
        obtain ⟨hresult, hsees⟩ := h.own hmints.1 (hin.1 rfl)
        obtain ⟨hanswers, hafter⟩ := ih hsees hmints.2 hin.2 hoff.2
        rw [serve_cons_of_some h.session_eq, ofKey_cons_self, ofKey_cons_self, hanswers, hresult]
        exact ⟨rfl, hafter⟩
      · rw [ofKey_cons_of_ne hkey]
        cases hopen : m.sessions[key']? with
        | none =>
            rw [serve_cons_of_none hopen]
            exact ih h hmints.2 hin.2 hoff.2
        | some opened =>
            rw [serve_cons_of_some hopen, ofKey_cons_of_ne hkey]
            exact ih (h.other hkey hmints.1 (hoff.1 hkey)) hmints.2 hin.2 hoff.2

/-! ## §4  Interleavings -/

/-- The requests are those of the programs, each program in its order. -/
def Interleaves (requests : List (String × Operation L)) (programs : String → List (Operation L)) :
    Prop :=
  ∀ key, ofKey key requests = programs key

/-- No session changes a slot that another one names. -/
def Independent (programs : String → List (Operation L)) : Prop :=
  ∀ key key', key ≠ key' → ∀ op ∈ programs key, ∀ op' ∈ programs key',
    ∀ slot ∈ op.changes, slot ∉ op'.names

/-- The slots that no session changes but the one under `key`. -/
def Unshared (programs : String → List (Operation L)) (key : String) (slot : Handle × String) :
    Prop :=
  ∀ key', key' ≠ key → ∀ op ∈ programs key', slot ∉ op.changes

variable {programs : String → List (Operation L)} {first second : List (String × Operation L)}
  {s : Session L}

omit [Level L] in
theorem Interleaves.mem (h : Interleaves requests programs) {request : String × Operation L}
    (hrequest : request ∈ requests) : request.2 ∈ programs request.1 := by
  rw [← h request.1]
  exact mem_ofKey.2 hrequest

omit [Level L] in
theorem Interleaves.ne (h : Interleaves requests programs) (hnone : programs key = []) :
    ∀ request ∈ requests, request.1 ≠ key := by
  rintro request hrequest rfl
  have hmem := h.mem hrequest
  rw [hnone] at hmem
  cases hmem

omit [Level L] in
/-- No slot that a session names is changed by another one. -/
theorem Independent.unshared (h : Independent programs) (hop : op ∈ programs key)
    {slot : Handle × String} (hslot : slot ∈ op.names) : Unshared programs key slot :=
  fun key' hkey op' hop' hchanges => h key' key hkey op' hop' op hop slot hchanges hslot

/-- In an interleaving of independent programs, each session does what it would do alone. -/
theorem serve_interleaving (hopen : m.sessions[key]? = some ⟨s, number⟩)
    (hmints : ∀ key, ∀ op ∈ programs key, op.mints = false) (hindependent : Independent programs)
    (hrequests : Interleaves requests programs) :
    ofKey key (m.serve requests).2 = Operation.answers (s, m.heap number) (programs key) ∧
      Sees (m.serve requests).1 number key (Unshared programs key)
        (Event.after (s, m.heap number) ((programs key).map .own)) := by
  rw [← hrequests key]
  refine serve_sees ⟨hopen, .refl _ _⟩ (fun request hrequest => ?_) ?_ ?_
  · exact hmints _ _ (hrequests.mem hrequest)
  · rintro request hrequest rfl slot hslot
    exact hindependent.unshared (hrequests.mem hrequest) hslot
  · intro request hrequest hkey slot hslot hunshared
    exact hunshared _ hkey _ (hrequests.mem hrequest) hslot

/-- **Interleavings of independent sessions agree.** Let open sessions on one heap carry
out a program each, in two orders that keep the order within each program. If no program
mints handles, and no session registers or sets a slot that another one reads, registers
or sets, then each session answers the same to each of its operations, all sessions end
the same (their locals, program counters and return levels), and so do the slots of the
heap: the same are registered, at the same levels. -/
theorem interleavings_agree
    (hopen : ∀ key, programs key ≠ [] → ∃ s, m.sessions[key]? = some ⟨s, number⟩)
    (hmints : ∀ key, ∀ op ∈ programs key, op.mints = false) (hindependent : Independent programs)
    (hfirst : Interleaves first programs) (hsecond : Interleaves second programs) :
    (∀ key, ofKey key (m.serve first).2 = ofKey key (m.serve second).2) ∧
      (m.serve first).1.sessions = (m.serve second).1.sessions ∧
      ∀ id slot, ((m.serve first).1.heap number).level? id slot =
        ((m.serve second).1.heap number).level? id slot := by
  have hsession : ∀ key, ofKey key (m.serve first).2 = ofKey key (m.serve second).2 ∧
      (m.serve first).1.sessions[key]? = (m.serve second).1.sessions[key]? := by
    intro key
    by_cases hnone : programs key = []
    · obtain ⟨hanswers₁, hsession₁⟩ := serve_of_ne (m := m) (hfirst.ne hnone)
      obtain ⟨hanswers₂, hsession₂⟩ := serve_of_ne (m := m) (hsecond.ne hnone)
      exact ⟨hanswers₁.trans hanswers₂.symm, hsession₁.trans hsession₂.symm⟩
    · obtain ⟨s, hs⟩ := hopen key hnone
      obtain ⟨hanswers₁, hsees₁⟩ := serve_interleaving hs hmints hindependent hfirst
      obtain ⟨hanswers₂, hsees₂⟩ := serve_interleaving hs hmints hindependent hsecond
      exact ⟨hanswers₁.trans hanswers₂.symm, hsees₁.session_eq.trans hsees₂.session_eq.symm⟩
  refine ⟨fun key => (hsession key).1, Std.ExtTreeMap.ext_getElem? fun key => (hsession key).2, ?_⟩
  intro id slot
  by_cases hchanged : ∃ key, ∃ op ∈ programs key, (id, slot) ∈ op.changes
  · -- one session changes the slot, and to it the slot is as if it were alone
    obtain ⟨key, op, hop, hslot⟩ := hchanged
    obtain ⟨s, hs⟩ := hopen key (List.ne_nil_of_mem hop)
    have hunshared := hindependent.unshared hop (List.mem_append_left _ hslot)
    obtain ⟨-, hsees₁⟩ := serve_interleaving hs hmints hindependent hfirst
    obtain ⟨-, hsees₂⟩ := serve_interleaving hs hmints hindependent hsecond
    exact (hsees₁.agree id slot hunshared).trans (hsees₂.agree id slot hunshared).symm
  · -- no session changes the slot
    have hkept : ∀ {requests}, Interleaves requests programs →
        Agree (· = (id, slot)) (m.heap number) ((m.serve requests).1.heap number) := by
      intro requests hrequests
      refine agree_serve (fun request hrequest => hmints _ _ (hrequests.mem hrequest)) ?_
      rintro request hrequest _ hslot rfl
      exact hchanged ⟨_, _, hrequests.mem hrequest, hslot⟩
    rw [← hkept hfirst id slot rfl, ← hkept hsecond id slot rfl]

section Witness

/-- Two sessions work on one record: the first in a branch on a secret, the second, under
the strict policy, on a slot that it registers after a write that fails. -/
def sharers : String → List (Operation TwoLevel)
  | "secret" =>
    [.enter ⟨"if"⟩ [.high], .writeElement ⟨1⟩ 0 .low, .exit ⟨"if"⟩, .readField ⟨1⟩ "0"]
  | "strict" =>
    [.writeElement ⟨1⟩ 1 .low, .trackField ⟨1⟩ "1", .writeElement ⟨1⟩ 1 .low]
  | _ => []

def openSharers : Monitor TwoLevel :=
  (empty.setSession "secret" ⟨.root {}, sharedHeap⟩).setSession "strict"
    ⟨.root .strict, sharedHeap⟩

def oneByOne : List (String × Operation TwoLevel) :=
  (sharers "secret").map ("secret", ·) ++ (sharers "strict").map ("strict", ·)

def alternating : List (String × Operation TwoLevel) :=
  [("strict", .writeElement ⟨1⟩ 1 .low), ("secret", .enter ⟨"if"⟩ [.high]),
    ("strict", .trackField ⟨1⟩ "1"), ("secret", .writeElement ⟨1⟩ 0 .low),
    ("strict", .writeElement ⟨1⟩ 1 .low), ("secret", .exit ⟨"if"⟩),
    ("secret", .readField ⟨1⟩ "0")]

theorem independent_sharers : Independent sharers := by
  intro key key' hkey
  unfold sharers
  split <;> split
  all_goals first
    | exact absurd rfl hkey
    | decide

theorem interleaves_oneByOne : Interleaves oneByOne sharers := by
  intro key
  unfold sharers
  split
  · rfl
  · rfl
  · rename_i hsecret hstrict
    simp [ofKey, oneByOne, sharers, Ne.symm hsecret, Ne.symm hstrict]

theorem interleaves_alternating : Interleaves alternating sharers := by
  intro key
  unfold sharers
  split
  · rfl
  · rfl
  · rename_i hsecret hstrict
    simp [ofKey, alternating, Ne.symm hsecret, Ne.symm hstrict]

theorem interleavings_agree_sharers :
    Independent sharers ∧ Interleaves oneByOne sharers ∧ Interleaves alternating sharers ∧
      (∀ key, ofKey key (openSharers.serve oneByOne).2 =
        ofKey key (openSharers.serve alternating).2) ∧
      (openSharers.serve oneByOne).1.sessions = (openSharers.serve alternating).1.sessions ∧
      ∀ id slot, ((openSharers.serve oneByOne).1.heap sharedHeap).level? id slot =
        ((openSharers.serve alternating).1.heap sharedHeap).level? id slot := by
  have hopen : ∀ key, sharers key ≠ [] →
      ∃ s, openSharers.sessions[key]? = some ⟨s, sharedHeap⟩ := by
    intro key hsome
    unfold sharers at hsome
    split at hsome
    · exact ⟨.root {}, by rfl⟩
    · exact ⟨.root .strict, by rfl⟩
    · exact absurd rfl hsome
  have hmints : ∀ key, ∀ op ∈ sharers key, op.mints = false := by
    intro key
    unfold sharers
    split <;> decide
  exact ⟨independent_sharers, interleaves_oneByOne, interleaves_alternating,
    interleavings_agree hopen hmints independent_sharers interleaves_oneByOne
      interleaves_alternating⟩

/-- The kind of the shared record does depend on who comes first. -/
example :
    (((openSharers.serve oneByOne).1.heap sharedHeap).record? ⟨1⟩).map (·.kind) = some .array ∧
      (((openSharers.serve alternating).1.heap sharedHeap).record? ⟨1⟩).map (·.kind) =
        some .object := by
  decide

end Witness

end Monitor

end InfoFlow
