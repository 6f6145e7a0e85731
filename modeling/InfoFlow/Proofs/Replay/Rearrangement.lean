import Mathlib.Data.List.Forall2
import InfoFlow.Level.Chain
import InfoFlow.Proofs.Replay.Progress
import InfoFlow.Proofs.Session.Operands

/-!
# The order of operands

A trace may name the operands of a value, or of the condition of a branch, in any order, any of
them several times, and constants with them: the replay ends in the same way and leaves the
same (`run_rearranged`). Where it is aborted because operands were never registered, another of
them may be blamed.
-/

namespace InfoFlow

variable {L : Type}

/-! ## §1  Rearranged traces -/

/-- The same action, with its operands named in another way. -/
inductive Action.Rearranged : Action L → Action L → Prop
  | write {name : String} {operands operands' : List (Operand L)}
      (named : Operand.Rearranged operands operands') :
      Rearranged (.write name operands) (.write name operands')
  | writeField {object : Handle} {field : String} {operands operands' : List (Operand L)}
      (named : Operand.Rearranged operands operands') :
      Rearranged (.writeField object field operands) (.writeField object field operands')
  | writeElement {array : Handle} {index : UInt64} {operands operands' : List (Operand L)}
      (named : Operand.Rearranged operands operands') :
      Rearranged (.writeElement array index operands) (.writeElement array index operands')
  | enter {tag : Tag} {condition condition' : List (Operand L)}
      (named : Operand.Rearranged condition condition') :
      Rearranged (.enter tag condition) (.enter tag condition')

inductive Step.Rearranged : Step L → Step L → Prop
  | same (step : Step L) : Rearranged step step
  | action {frame : String} {action action' : Action L} (named : action.Rearranged action') :
      Rearranged ⟨frame, .action action⟩ ⟨frame, .action action'⟩

/-- The same trace, with the operands of some steps named in another way. -/
structure Trace.Rearranged (trace trace' : Trace L) : Prop where
  description_eq : trace'.description = trace.description
  steps : List.Forall₂ Step.Rearranged trace.steps trace'.steps

/-- The operands whose join a step uses. -/
def Step.operands (step : Step L) : List (Operand L) :=
  match step.op with
  | .action action => action.operands
  | _ => []

namespace Action.Rearranged

variable {action action' : Action L}

theorem operands (h : action.Rearranged action') :
    Operand.Rearranged action.operands action'.operands := by
  cases h with
  | write named => exact named
  | writeField named => exact named
  | writeElement named => exact named
  | enter named => exact named

/-- Given the level of the operands, both ask for the same operation. -/
theorem operation_eq [Level L] (h : action.Rearranged action') (level : L) :
    action'.operation level = action.operation level := by
  cases h <;> rfl

end Action.Rearranged

namespace Replay

variable [Level L] {r r' : Replay L} {step step' : Step L} {steps steps' : List (Step L)}
  {fault : Nat → ReplayFault} {index : Nat}

/-! ## §2  Steps -/

/-- An operand of the step was never registered; this is its place. -/
def Unread (r : Replay L) (step : Step L) (place : Place) : Prop :=
  ∃ s operand, r.frames[step.frame]? = some s ∧ operand ∈ step.operands ∧
    s.levelOf r.heap operand = .error (.unregistered place)

/-- The step is aborted because `place` was never registered. -/
def blame (step : Step L) (place : Place) (index : Nat) : ReplayFault :=
  .fault index step.frame (.unregistered place)

variable [LawfulBottom L]

theorem Does.rearranged (h : Does r step r') (hstep : step.Rearranged step') :
    Does r step' r' := by
  cases hstep with
  | same => exact h
  | action named =>
      cases h with
      | @action frame action s s' r₁ level reply heap' acts operands rule =>
          rw [← named.operation_eq level] at rule
          exact .action acts (Session.operandLevel_of_rearranged named.operands operands) rule

/-- **A step whose operands are named in another way fails as it did**, but that it may blame
another operand. -/
theorem Stops.rearranged (h : Stops r step fault r') (hstep : step.Rearranged step') :
    Stops r step' fault r' ∨ ∃ place place', fault = blame step place ∧
      Stops r step' (blame step place') r' ∧ r'.Unread step place ∧ r'.Unread step place' := by
  cases hstep with
  | same => exact Or.inl h
  | action named =>
      cases h with
      | closed ready absent opened => exact Or.inl (.closed trivial absent opened)
      | @action frame action s r₁ level cause acts operands fault =>
          rw [← named.operation_eq level] at fault
          exact Or.inl
            (.action acts (Session.operandLevel_of_rearranged named.operands operands) fault)
      | @unread frame action s r₁ cause acts unread =>
          obtain ⟨cause', hunread', operand', hmem', hblamed'⟩ :=
            Session.unread_of_rearranged named.operands unread
          obtain ⟨operand, hmem, hblamed⟩ := Session.exists_unread unread
          obtain ⟨place, -, rfl⟩ := Session.unregistered_of_levelOf hblamed
          obtain ⟨place', -, rfl⟩ := Session.unregistered_of_levelOf hblamed'
          exact Or.inr ⟨place, place', rfl, .unread acts hunread',
            ⟨s, operand, acts.found, hmem, hblamed⟩, s, operand', acts.found, hmem', hblamed'⟩

/-! ## §3  Traces -/

/-- `SameButBlame steps index ending ending'`: two replays of these steps, the first of which
has number `index`, end in the same way, or are aborted by the same step, each of them blaming
an operand of it. -/
inductive SameButBlame (steps : List (Step L)) (index : Nat) :
    Except ReplayFault Report × Replay L → Except ReplayFault Report × Replay L → Prop
  | same (ending : Except ReplayFault Report × Replay L) : SameButBlame steps index ending ending
  | blamed {i : Nat} {step : Step L} {place place' : Place} {r : Replay L}
      (found : steps[i]? = some step) (unread : r.Unread step place)
      (unread' : r.Unread step place') :
      SameButBlame steps index (.error (blame step place (index + i)), r)
        (.error (blame step place' (index + i)), r)

omit [LawfulBottom L] in
theorem SameButBlame.cons {ending ending' : Except ReplayFault Report × Replay L}
    (h : SameButBlame steps (index + 1) ending ending') (step : Step L) :
    SameButBlame (step :: steps) index ending ending' := by
  cases h with
  | same => exact .same ending
  | @blamed i blamed place place' r found unread unread' =>
      have hnumber : index + 1 + i = index + (i + 1) := by omega
      rw [hnumber]
      exact .blamed (by simpa using found) unread unread'

/-- Steps whose operands are named in another way are replayed alike. -/
theorem replaySteps_rearranged (h : List.Forall₂ Step.Rearranged steps steps') (r : Replay L)
    (index : Nat) (report : Report) :
    SameButBlame steps index (r.replaySteps index report steps).ending
      (r.replaySteps index report steps').ending := by
  induction h generalizing r index report with
  | nil => exact .same _
  | @cons step step' steps steps' hstep hsteps ih =>
      rcases r.does_or_stops step with ⟨r₁, hdoes⟩ | ⟨fault, r₁, hstops⟩
      · rw [hdoes.ending_replaySteps, (hdoes.rearranged hstep).ending_replaySteps]
        exact (ih r₁ (index + 1) _).cons step
      · rcases hstops.rearranged hstep with
          hstops' | ⟨place, place', rfl, hstops', hunread, hunread'⟩
        · cases hviolation : (fault index).violation? with
          | none =>
              rw [hstops.ending_replaySteps hviolation, hstops'.ending_replaySteps hviolation]
              exact .same _
          | some v =>
              -- both put the same illegal flow down, and go on or stop there
              obtain ⟨rfl, -⟩ := hstops.eq_of_violation hviolation
              rw [hstops.ending_replaySteps_violation hviolation,
                hstops'.ending_replaySteps_violation hviolation]
              split
              · exact (ih r₁ (index + 1) _).cons step
              · exact .same _
        · -- an operand that was never registered is no illegal flow, so both are aborted
          rw [hstops.ending_replaySteps rfl, hstops'.ending_replaySteps rfl]
          exact .blamed (i := 0) rfl hunread hunread'

/-- **The order of operands and their repetition do not matter.** Let a trace name the operands
of some writes and branches in another order, some of them again, or constants between them.
Under the same policy, and whether it goes on after illegal flows or not, its replay comes to
the same report and leaves the same, or is aborted by the same step with the same fault,
leaving the same. Only if this step uses operands that were never registered, the two replays
may blame different ones of them. -/
theorem run_rearranged {trace trace' : Trace L} (h : trace.Rearranged trace') (r : Replay L) :
    (r.run trace').state = (r.run trace).state ∧
      ((r.run trace').result = (r.run trace).result ∨
        ∃ i step place place', trace.steps[i]? = some step ∧
          (r.run trace).state.Unread step place ∧ (r.run trace).state.Unread step place' ∧
          (r.run trace).result = .error (.fault i step.frame (.unregistered place)) ∧
          (r.run trace').result = .error (.fault i step.frame (.unregistered place'))) := by
  have hsame := replaySteps_rearranged h.steps r.reset 0 .empty
  rw [← ending_run, ← ending_run] at hsame
  unfold Outcome.ending at hsame
  generalize (r.run trace).result = result, (r.run trace).state = final,
    (r.run trace').result = result', (r.run trace').state = final' at hsame ⊢
  cases hsame with
  | same => exact ⟨rfl, Or.inl rfl⟩
  | @blamed i step place place' r found unread unread' =>
      rw [Nat.zero_add]
      exact ⟨rfl, Or.inr ⟨i, step, place, place', found, unread, unread', rfl, rfl⟩⟩

section Witness

/-- A local is written in a branch on a secret, then it is computed from two that were never
declared. -/
def blamesFirst : Trace TwoLevel where
  description := ""
  steps :=
    [⟨"main", .action (.declare "x")⟩, ⟨"main", .action (.declare "y")⟩,
      ⟨"main", .action (.label "x" .high)⟩,
      ⟨"main", .action (.enter ⟨"a"⟩ [.local "x", .local "y"])⟩,
      ⟨"main", .action (.write "y" [])⟩, ⟨"main", .action (.exit ⟨"a"⟩)⟩,
      ⟨"main", .action (.write "y" [.local "u", .local "v"])⟩]

/-- The operands are named backwards and constants come in. -/
def blamesSecond : Trace TwoLevel where
  description := ""
  steps :=
    [⟨"main", .action (.declare "x")⟩, ⟨"main", .action (.declare "y")⟩,
      ⟨"main", .action (.label "x" .high)⟩,
      ⟨"main", .action (.enter ⟨"a"⟩ [.local "y", .local "y", .local "x"])⟩,
      ⟨"main", .action (.write "y" [.constant])⟩, ⟨"main", .action (.exit ⟨"a"⟩)⟩,
      ⟨"main", .action (.write "y" [.local "v", .local "u"])⟩]

theorem blamesFirst_rearranged : blamesFirst.Rearranged blamesSecond where
  description_eq := rfl
  steps := by
    have hswap : ∀ x y : String, Operand.Rearranged (L := TwoLevel) [.local x, .local y]
        [.local y, .local x] := fun x y => .permuted (.swap _ _ [])
    refine .cons (.same _) (.cons (.same _) (.cons (.same _) (.cons (.action (.enter ?_))
      (.cons (.action (.write (.constant []))) (.cons (.same _)
        (.cons (.action (.write (hswap "u" "v"))) .nil))))))
    exact .trans (hswap "x" "y") (.repeated List.mem_cons_self)

/-- After an illegal flow both replays are aborted by the last step, which has two operands to
blame. -/
theorem run_rearranged_blames :
    blamesFirst.Rearranged blamesSecond ∧
      ((new {} true).run blamesFirst).result =
        .error (.fault 6 "main" (.unregistered (.local "u"))) ∧
      ((new {} true).run blamesSecond).result =
        .error (.fault 6 "main" (.unregistered (.local "v"))) ∧
      ((new {} true).run blamesSecond).state = ((new {} true).run blamesFirst).state ∧
      ((new {} true).run blamesFirst).state.Unread
        ⟨"main", .action (.write "y" [.local "u", .local "v"])⟩ (.local "v") := by
  have hfirst : ((new {} true).run blamesFirst).result =
      .error (.fault 6 "main" (.unregistered (.local "u"))) := by rfl
  have hsecond : ((new {} true).run blamesSecond).result =
      .error (.fault 6 "main" (.unregistered (.local "v"))) := by rfl
  obtain ⟨hstate, hresult⟩ := run_rearranged blamesFirst_rearranged (new {} true)
  refine ⟨blamesFirst_rearranged, hfirst, hsecond, hstate, ?_⟩
  rcases hresult with hsame | ⟨i, step, place, place', hfound, -, hunread, hblamed, hblamed'⟩
  · rw [hfirst, hsecond] at hsame
    simp at hsame
  · rw [hfirst, Except.error.injEq, ReplayFault.fault.injEq] at hblamed
    rw [hsecond, Except.error.injEq, ReplayFault.fault.injEq] at hblamed'
    obtain ⟨rfl, -, -⟩ := hblamed
    obtain ⟨-, -, hplace'⟩ := hblamed'
    cases hfound
    cases hplace'
    exact hunread

end Witness

end Replay

end InfoFlow
