import InfoFlow.Level.Chain
import InfoFlow.Proofs.Session.Confinement

/-!
# Writes inside a branch to locals declared before it

No sensitive upgrade: inside a branch on a secret, a local that existed before
must not be raised. The monitor takes a local to have existed before when the
current program counter does not flow to the one it was declared under. This is
an approximation, and it misses a local that was first declared in a branch as
secret as the current one and left since: such a local is raised freely. So is one
that is labelled by hand inside the branch, and one that an argument is bound to
there, for the write compares with the level that it has by then
(`not_forall_committed_le`). For every other local the rule holds (`committed_le`),
and these are all that were declared in a scope which is still open.
-/

namespace InfoFlow

open ProgramCounter (Extends)
open LawfulJoin

variable {L : Type} [Level L]

/-! ## §1  The first declaration of a local -/

/-- In the run through `history`, local `x` is first declared by the event
`declaring`, which comes after `done`. -/
structure FirstDeclared (opening : Session L × Heap L) (history : List (Event L)) (x : String)
    (done : List (Event L)) (declaring : Event L) (rest : List (Event L)) : Prop where
  split : history = done ++ declaring :: rest
  absent : (Event.after opening done).1.locals.find? x = none
  present : ∃ slot, (Event.after opening (done ++ [declaring])).1.locals.find? x = some slot

namespace Event

theorem find?_apply_of_some {state : Session L × Heap L} {x : String} {slot : LocalLabel L}
    (h : state.1.locals.find? x = some slot) (event : Event L) :
    ∃ slot', (event.apply state).1.locals.find? x = some slot' ∧
      slot'.declaredUnder = slot.declaredUnder := by
  cases event with
  | others heap => exact ⟨slot, h, rfl⟩
  | own op =>
      show ∃ slot', (op.perform state.1 state.2).state.1.locals.find? x = some slot' ∧ _
      rcases Operation.state_cases op state.1 state.2 with hsame | ⟨reply, hrule⟩
      · rw [hsame]
        exact ⟨slot, h, rfl⟩
      · obtain ⟨slot', hfound, hunder, -⟩ := hrule.find?_cases h
        exact ⟨slot', hfound, hunder⟩

theorem find?_after_of_some {state : Session L × Heap L} {x : String} {slot : LocalLabel L}
    (h : state.1.locals.find? x = some slot) (events : List (Event L)) :
    ∃ slot', (after state events).1.locals.find? x = some slot' ∧
      slot'.declaredUnder = slot.declaredUnder := by
  induction events generalizing state slot with
  | nil => exact ⟨slot, h, rfl⟩
  | cons event events ih =>
      obtain ⟨next, hnext, hunder⟩ := find?_apply_of_some h event
      obtain ⟨slot', hfound, hunder'⟩ := ih hnext
      exact ⟨slot', hfound, hunder'.trans hunder⟩

theorem declaredUnder_apply {state : Session L × Heap L} {event : Event L} {x : String}
    (h : state.1.locals.find? x = none) {slot : LocalLabel L}
    (h' : (event.apply state).1.locals.find? x = some slot) :
    slot.declaredUnder = state.1.pc.level := by
  cases event with
  | others heap =>
      rw [show (apply (others heap) state).1 = state.1 from rfl, h] at h'
      cases h'
  | own op =>
      change (op.perform state.1 state.2).state.1.locals.find? x = some slot at h'
      rcases Operation.state_cases op state.1 state.2 with hsame | ⟨reply, hrule⟩
      · rw [hsame, h] at h'
        cases h'
      · rcases hrule.find?_cases_of_none h with hnone | ⟨-, first, hfirst, hunder⟩
        · rw [hnone] at h'
          cases h'
        · obtain rfl : first = slot := Option.some.inj (hfirst.symm.trans h')
          exact hunder

end Event

/-- A local that a run has declared was first declared somewhere, and its
declaration PC is the program counter there: later declarations do not renew it. -/
theorem exists_firstDeclared {opening : Session L × Heap L} {history : List (Event L)}
    {x : String} {slot : LocalLabel L} (h₀ : opening.1.locals.find? x = none)
    (h : (Event.after opening history).1.locals.find? x = some slot) :
    ∃ done declaring rest, FirstDeclared opening history x done declaring rest ∧
      slot.declaredUnder = (Event.after opening done).1.pc.level := by
  induction history generalizing opening with
  | nil =>
      rw [Event.after_nil, h₀] at h
      cases h
  | cons event events ih =>
      cases hnext : (event.apply opening).1.locals.find? x with
      | none =>
          obtain ⟨done, declaring, rest, hfirst, hunder⟩ := ih hnext h
          refine ⟨event :: done, declaring, rest, ⟨?_, hfirst.absent, hfirst.present⟩, hunder⟩
          rw [hfirst.split, List.cons_append]
      | some first =>
          refine ⟨[], event, events, ⟨rfl, h₀, first, hnext⟩, ?_⟩
          obtain ⟨slot', hfound, hunder⟩ := Event.find?_after_of_some hnext events
          obtain rfl : slot' = slot := Option.some.inj (hfound.symm.trans h)
          rw [hunder]
          exact Event.declaredUnder_apply h₀ hnext

/-! ## §2  Writes inside a branch -/

/-- A write inside a branch, with the run of the session up to it: what happens
from the opening to the branch, how the branch is entered, what happens inside
before the write. -/
structure InnerWrite (L : Type) where
  opening : Session L × Heap L
  history : List (Event L)
  entering : Operation L
  inside : List (Event L)
  name : String
  operand : L

namespace InnerWrite

def branch (w : InnerWrite L) : Branch L where
  before := Event.after w.opening w.history
  entering := w.entering
  events := w.inside

/-- The session starts with nothing done; the branch is entered with program
counter `p` when the local is declared with labels `slot`; before the branch is
left, the write commits `committed`. -/
structure Commits (w : InnerWrite L) (p : L) (slot : LocalLabel L) (committed : L) : Prop where
  opens : ∃ frame policy base arguments, w.opening.1 = Session.start frame policy base arguments
  isOpen : w.branch.Open p
  declared : w.branch.before.1.locals.find? w.name = some slot
  commits : ((Operation.write w.name w.operand).perform w.branch.inside.1
    w.branch.inside.2).result = .ok (.level committed)

/-- What a write commits to a local that was declared, and not relabelled, under
a program counter to which `p` does not flow. -/
theorem Commits.le_of_not_le [LawfulJoin L] {w : InnerWrite L} {p : L} {slot : LocalLabel L}
    {committed : L} (h : w.Commits p slot committed)
    (hspared : Event.Spared w.name w.branch.entered w.inside)
    (hunder : ¬ p ≤ slot.declaredUnder) : committed ≤ slot.level := by
  obtain ⟨now, hnow, hdecl, hle, -⟩ := h.isOpen.held h.declared hunder hspared
  have hpc : p ≤ w.branch.inside.1.pc.level := by
    have hlevel := h.isOpen.entered_eq.1
    have hgrown := Event.extends_after (Extends.refl _) h.isOpen.staysOpen
    rw [← hlevel]
    exact hgrown.level_le
  obtain ⟨hreply, slot', hslot', hadmitted⟩ := (Operation.succeeds_of_ok h.commits).of_write
  obtain rfl : slot' = now := Option.some.inj (hslot'.symm.trans hnow)
  have hpre : w.branch.inside.1.PreExisting slot' := by
    intro hflows
    rw [hdecl] at hflows
    exact hunder (le_trans hpc hflows)
  rw [Reply.level.inj hreply]
  exact le_trans (hadmitted hpre) hle

/-- **No sensitive upgrade, for the locals the monitor recognises.** A write
inside a branch with program counter `p`, to a local that was declared before the
branch and is not relabelled in it, commits a level that flows to the one the
local had on entry, provided that `p` does not flow to the program counter at
the local's first declaration. So it is for every local whose declaring scope is
still open, if the branch raises the program counter at all. -/
theorem committed_le [LawfulJoin L] {w : InnerWrite L} {p : L} {slot : LocalLabel L}
    {committed : L} (h : w.Commits p slot committed)
    (hspared : Event.Spared w.name w.branch.entered w.inside) :
    ∃ done declaring rest, FirstDeclared w.opening w.history w.name done declaring rest ∧
      (¬ p ≤ (Event.after w.opening done).1.pc.level ∨
          ¬ p ≤ w.branch.before.1.pc.level ∧
            Event.StaysOpen (Event.after w.opening done).1.pc.depth
              (Event.after w.opening done) (declaring :: rest) →
        committed ≤ slot.level) := by
  obtain ⟨frame, policy, base, arguments, hopening⟩ := h.opens
  have hnone : w.opening.1.locals.find? w.name = none := by
    rw [hopening]
    exact Locals.find?_empty w.name
  obtain ⟨done, declaring, rest, hfirst, hunder⟩ := exists_firstDeclared hnone h.declared
  refine ⟨done, declaring, rest, hfirst, ?_⟩
  rw [← hunder]
  rintro (hbelow | ⟨hraises, hopen⟩)
  · exact h.le_of_not_le hspared hbelow
  · refine h.le_of_not_le hspared ?_
    -- the scopes at the declaration are still open, so its PC flows to the current one
    have hgrown := (Event.extends_after (Extends.refl _) hopen).level_le
    rw [← Event.after_append, ← hfirst.split] at hgrown
    rw [hunder]
    intro hp
    exact hraises (le_trans hp hgrown)

/-- A confidential branch in which a local is lowered that was declared twice
before it, with a secret branch inside. An argument that is not there is not bound to it. -/
def inOpenFrame : InnerWrite ThreeLevel where
  opening := (.start "f" {} .low [.high], .empty)
  history := [.own (.declare "x"), .own (.label "x" .high), .own (.declare "x")]
  entering := .enter ⟨"outer"⟩ [.medium]
  inside :=
    [.own (.enter ⟨"inner"⟩ [.high]), .own (.write "x" .low), .own (.bindArgument 1 "x"),
      .own (.exit ⟨"inner"⟩)]
  name := "x"
  operand := .low

theorem committed_le_inOpenFrame :
    inOpenFrame.Commits .medium ⟨.high, .low⟩ .medium ∧
    Event.Spared inOpenFrame.name inOpenFrame.branch.entered inOpenFrame.inside ∧
    ∃ done declaring rest,
      FirstDeclared inOpenFrame.opening inOpenFrame.history "x" done declaring rest ∧
      (¬ .medium ≤ (Event.after inOpenFrame.opening done).1.pc.level ∨
          ¬ .medium ≤ inOpenFrame.branch.before.1.pc.level ∧
            Event.StaysOpen (Event.after inOpenFrame.opening done).1.pc.depth
              (Event.after inOpenFrame.opening done) (declaring :: rest) →
        ThreeLevel.medium ≤ ThreeLevel.high) := by
  have hcommits : inOpenFrame.Commits .medium ⟨.high, .low⟩ .medium :=
    { opens := ⟨"f", {}, .low, [.high], rfl⟩
      isOpen := { enters := trivial, answer := by rfl, staysOpen := by decide }
      declared := by rfl
      commits := by rfl }
  have hspared : Event.Spared inOpenFrame.name inOpenFrame.branch.entered inOpenFrame.inside := by
    refine ⟨fun _ => id, fun _ => id, fun hbound => ?_, fun _ => id, trivial⟩
    exact absurd hbound (by decide)
  exact ⟨hcommits, hspared, committed_le hcommits hspared⟩

/-- A local declared in a secret branch that was left, and then written in another
secret branch. -/
def inLaterBranch : InnerWrite TwoLevel where
  opening := (.root {}, .empty)
  history := [.own (.enter ⟨"first"⟩ [.high]), .own (.declare "x"), .own (.exit ⟨"first"⟩)]
  entering := .enter ⟨"second"⟩ [.high]
  inside := []
  name := "x"
  operand := .low

/-- A local labelled by hand inside the secret branch in which it is written. -/
def afterLabel : InnerWrite TwoLevel where
  opening := (.root {}, .empty)
  history := [.own (.declare "x")]
  entering := .enter ⟨"first"⟩ [.high]
  inside := [.own (.label "x" .high)]
  name := "x"
  operand := .low

/-- A local that a secret argument is bound to inside the secret branch in which it is
written. -/
def afterArgument : InnerWrite TwoLevel where
  opening := (.start "f" {} .low [.high], .empty)
  history := [.own (.declare "x")]
  entering := .enter ⟨"first"⟩ [.high]
  inside := [.own (.bindArgument 0 "x")]
  name := "x"
  operand := .low

theorem commits_inLaterBranch : inLaterBranch.Commits .high ⟨.low, .high⟩ .high where
  opens := ⟨"main", {}, .low, [], rfl⟩
  isOpen := { enters := trivial, answer := by rfl, staysOpen := by decide }
  declared := by rfl
  commits := by rfl

theorem commits_afterLabel : afterLabel.Commits .high ⟨.low, .low⟩ .high where
  opens := ⟨"main", {}, .low, [], rfl⟩
  isOpen := { enters := trivial, answer := by rfl, staysOpen := by decide }
  declared := by rfl
  commits := by rfl

theorem commits_afterArgument : afterArgument.Commits .high ⟨.low, .low⟩ .high where
  opens := ⟨"f", {}, .low, [.high], rfl⟩
  isOpen := { enters := trivial, answer := by rfl, staysOpen := by decide }
  declared := by rfl
  commits := by rfl

/-- **Without these provisos locals are raised.** A branch raises the program
counter from low to high, and a local declared before it goes from low to high
inside: one to which nothing happens in the branch before the write, and one that was
declared under a low program counter, be it by a label alone or by an argument alone. -/
theorem not_forall_committed_le :
    (¬ ∀ (w : InnerWrite TwoLevel) (p : TwoLevel) (slot : LocalLabel TwoLevel)
        (committed : TwoLevel), w.Commits p slot committed →
      ¬ p ≤ w.branch.before.1.pc.level → w.inside = [] → committed ≤ slot.level) ∧
    (¬ ∀ (w : InnerWrite TwoLevel) (p : TwoLevel) (slot : LocalLabel TwoLevel)
        (committed : TwoLevel), w.Commits p slot committed →
      ¬ p ≤ w.branch.before.1.pc.level → ¬ p ≤ slot.declaredUnder →
      (∀ position, .own (.bindArgument position w.name) ∉ w.inside) →
      committed ≤ slot.level) ∧
    ¬ ∀ (w : InnerWrite TwoLevel) (p : TwoLevel) (slot : LocalLabel TwoLevel)
        (committed : TwoLevel), w.Commits p slot committed →
      ¬ p ≤ w.branch.before.1.pc.level → ¬ p ≤ slot.declaredUnder →
      (∀ level, .own (.label w.name level) ∉ w.inside) →
      committed ≤ slot.level := by
  refine ⟨fun h => ?_, fun h => ?_, fun h => ?_⟩
  · have hraised := h inLaterBranch .high ⟨.low, .high⟩ .high commits_inLaterBranch
      (by decide) rfl
    exact absurd hraised (by decide)
  · have hraised := h afterLabel .high ⟨.low, .low⟩ .high commits_afterLabel
      (by decide) (by decide) (by simp [afterLabel])
    exact absurd hraised (by decide)
  · have hraised := h afterArgument .high ⟨.low, .low⟩ .high commits_afterArgument
      (by decide) (by decide) (by simp [afterArgument])
    exact absurd hraised (by decide)

end InnerWrite

end InfoFlow
