import InfoFlow.Proofs.Session.Step

/-!
# Runs of a session

A session lives through *events*: operations of its own, and changes that other
sessions make to the heap they share. `after` runs through a list of events,
failed operations included. `StaysOpen` says that the scopes that are open at
the start of a run are never closed in it; such a run only grows the program
counter (`Extends`), so its level never falls below the one at the start.
-/

namespace InfoFlow

open Level (join)
open LawfulJoin

/-- What happens to a session and the heap it works on. -/
inductive Event (L : Type) where
  /-- The session carries out an operation, or fails to. -/
  | own (op : Operation L)
  /-- Other sessions leave the heap like this. -/
  | others (heap : Heap L)

variable {L : Type} [Level L]

/-! ## §1  Running through events -/

namespace Event

def apply (event : Event L) (state : Session L × Heap L) : Session L × Heap L :=
  match event with
  | own op => (op.perform state.1 state.2).state
  | others heap => (state.1, heap)

/-- The session and the heap after some events. -/
def after (state : Session L × Heap L) (events : List (Event L)) : Session L × Heap L :=
  events.foldl (fun state event => event.apply state) state

@[simp] theorem after_nil (state : Session L × Heap L) : after state [] = state := rfl

theorem after_append (state : Session L × Heap L) (done rest : List (Event L)) :
    after state (done ++ rest) = after (after state done) rest :=
  List.foldl_append

/-- The run never closes a scope so far down that fewer than `depth` are open. -/
def StaysOpen (depth : Nat) (state : Session L × Heap L) (events : List (Event L)) : Prop :=
  ∀ done, done <+: events → depth ≤ (after state done).1.pc.depth

theorem StaysOpen.after {depth : Nat} {state : Session L × Heap L} {done rest : List (Event L)}
    (h : StaysOpen depth state (done ++ rest)) : StaysOpen depth (after state done) rest := by
  intro later hlater
  rw [← after_append]
  exact h (done ++ later) ((List.prefix_append_right_inj done).2 hlater)

theorem staysOpen_nil {depth : Nat} {state : Session L × Heap L} :
    StaysOpen depth state [] ↔ depth ≤ state.1.pc.depth := by
  constructor
  · intro h
    exact h [] (List.prefix_refl [])
  · intro h done hdone
    rw [List.prefix_nil.1 hdone]
    exact h

theorem staysOpen_cons {depth : Nat} {state : Session L × Heap L} {event : Event L}
    {events : List (Event L)} :
    StaysOpen depth state (event :: events) ↔
      depth ≤ state.1.pc.depth ∧ StaysOpen depth (event.apply state) events := by
  constructor
  · intro h
    refine ⟨h [] List.nil_prefix, ?_⟩
    have hsplit : StaysOpen depth state ([event] ++ events) := h
    exact hsplit.after
  · rintro ⟨hdepth, h⟩ done hdone
    cases done with
    | nil => exact hdepth
    | cons first done =>
        obtain ⟨rfl, hrest⟩ := List.cons_prefix_cons.1 hdone
        exact h done hrest

instance decidableStaysOpen (depth : Nat) :
    ∀ (state : Session L × Heap L) (events : List (Event L)),
      Decidable (StaysOpen depth state events)
  | _, [] => decidable_of_iff _ staysOpen_nil.symm
  | state, event :: events =>
      have := decidableStaysOpen depth (event.apply state) events
      decidable_of_iff _ staysOpen_cons.symm

end Event

/-! ## §2  The program counter of a run that closes nothing -/

namespace ProgramCounter

/-- `Extends low pc`: the scopes of `low` are open in `pc`, and the scopes opened
since are at the level of `low` or above. -/
def Extends (low pc : ProgramCounter L) : Prop :=
  pc.base = low.base ∧ ∃ inner, pc.scopes = inner ++ low.scopes ∧
    ∀ scope ∈ inner, low.level ≤ scope.inside

theorem Extends.refl (pc : ProgramCounter L) : Extends pc pc :=
  ⟨rfl, [], rfl, fun _ h => absurd h List.not_mem_nil⟩

theorem Extends.level_le [LawfulJoin L] {low pc : ProgramCounter L} (h : Extends low pc) :
    low.level ≤ pc.level := by
  obtain ⟨hbase, inner, hscopes, hinner⟩ := h
  cases inner with
  | nil =>
      have hsame : pc.level = low.level := by
        unfold ProgramCounter.level
        rw [hscopes, hbase, List.nil_append]
      rw [hsame]
      exact le_refl _
  | cons scope inner =>
      have htop : pc.level = scope.inside := by
        unfold ProgramCounter.level
        rw [hscopes, List.cons_append]
      rw [htop]
      exact hinner scope List.mem_cons_self

theorem Extends.enter [LawfulJoin L] {low pc pc' : ProgramCounter L} (h : Extends low pc)
    {condition : L} {tag : Tag} (henter : pc.enter condition tag = .ok pc') : Extends low pc' := by
  have hlevel := h.level_le
  obtain ⟨hbase, inner, hscopes, hinner⟩ := h
  obtain ⟨-, rfl⟩ := enter_eq_ok.1 henter
  refine ⟨hbase, ⟨tag, condition, join pc.level condition⟩ :: inner, ?_, ?_⟩
  · rw [List.cons_append, ← hscopes]
  · intro scope hscope
    rcases List.mem_cons.1 hscope with rfl | hscope
    · exact le_join_of_le_left _ hlevel
    · exact hinner scope hscope

theorem Extends.leave {low pc pc' : ProgramCounter L} (h : Extends low pc) {tag : Tag}
    (hleave : pc.leave tag = .ok pc') (hdepth : low.depth ≤ pc'.depth) : Extends low pc' := by
  obtain ⟨hbase, inner, hscopes, hinner⟩ := h
  obtain ⟨scope, outer, hopen, -, rfl⟩ := leave_eq_ok.1 hleave
  cases inner with
  | nil =>
      -- the scope that is closed is one of `low`
      rw [List.nil_append, hopen] at hscopes
      unfold depth at hdepth
      rw [← hscopes, List.length_cons] at hdepth
      exact absurd hdepth (Nat.not_succ_le_self _)
  | cons top inner =>
      rw [hopen, List.cons_append] at hscopes
      obtain ⟨rfl, rfl⟩ := List.cons.inj hscopes
      exact ⟨hbase, inner, rfl, fun s hs => hinner s (List.mem_cons_of_mem _ hs)⟩

end ProgramCounter

namespace Event

open ProgramCounter (Extends)

variable [LawfulJoin L]

theorem extends_apply {low : ProgramCounter L} {state : Session L × Heap L} {event : Event L}
    (h : Extends low state.1.pc) (hdepth : low.depth ≤ (event.apply state).1.pc.depth) :
    Extends low (event.apply state).1.pc := by
  cases event with
  | others heap => exact h
  | own op =>
      show Extends low (op.perform state.1 state.2).state.1.pc
      rcases Operation.state_cases op state.1 state.2 with hsame | ⟨reply, hrule⟩
      · rw [hsame]
        exact h
      · rcases hrule.pc_cases with hpc | ⟨tag, condition, -, hpc⟩ | ⟨tag, hpc⟩
        · rw [hpc]
          exact h
        · exact h.enter hpc
        · exact h.leave hpc hdepth

/-- **A run that closes nothing only grows the program counter.** -/
theorem extends_after {low : ProgramCounter L} {state : Session L × Heap L}
    {events : List (Event L)} (h : Extends low state.1.pc)
    (hopen : StaysOpen low.depth state events) : Extends low (after state events).1.pc := by
  induction events generalizing state with
  | nil => exact h
  | cons event events ih =>
      have hfirst : low.depth ≤ (event.apply state).1.pc.depth :=
        hopen [event] (List.prefix_append [event] events)
      exact ih (extends_apply h hfirst) (staysOpen_cons.1 hopen).2

/-- **Invariants of a branch.** What every event preserves while the program counter
is at the level of `low` or above holds after a run that keeps the scopes of `low`
open. The invariant may speak of the events that are still to come. -/
theorem invariant_after (Inv : Session L × Heap L → List (Event L) → Prop)
    {low : ProgramCounter L} {state : Session L × Heap L} {events : List (Event L)}
    (hlow : Extends low state.1.pc) (hopen : StaysOpen low.depth state events)
    (hstep : ∀ state event rest, low.level ≤ state.1.pc.level → Inv state (event :: rest) →
      Inv (event.apply state) rest)
    (h : Inv state events) : Inv (after state events) [] := by
  induction events generalizing state with
  | nil => exact h
  | cons event events ih =>
      have hrest := (staysOpen_cons.1 hopen).2
      have hdepth : low.depth ≤ (event.apply state).1.pc.depth :=
        hrest [] List.nil_prefix
      exact ih (extends_apply hlow hdepth) hrest (hstep state event events hlow.level_le h)

end Event

end InfoFlow
