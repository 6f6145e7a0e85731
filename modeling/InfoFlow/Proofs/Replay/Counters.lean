import InfoFlow.Level.Chain
import InfoFlow.Proofs.Monitor.Counters
import InfoFlow.Proofs.Replay.Lifecycle

/-!
# Counters of a replay

What a replay writes down is what its steps write down, one after the other, and a closing line
if it comes to a report (`journal_run`). Every step is counted, so that the counters of a run
count the steps that fail. An illegal flow need not end a run, and a run that is aborted later
has ticked for it although there is no report; a branch left in the wrong order always ends the
run. With the requests to a monitor this is all there is to the counters (`counters_match`).
-/

namespace InfoFlow

open Outcome (counted_noted counted_ok counted_fail)

/-- The counter that a fault belongs to is that of the failure behind it. -/
def ReplayFault.counter? (e : ReplayFault) : Option Counter := e.cause?.bind Fault.counter?

namespace ReplayFault

/-- The failure behind the fault is of this kind. -/
def causedBy (e : ReplayFault) (kind : Fault → Bool) : Bool := e.cause?.any kind

variable {e : ReplayFault}

theorem causedBy_iff {kind : Fault → Bool} {counter : Counter}
    (hkind : ∀ cause : Fault, kind cause = true ↔ cause.counter? = some counter) :
    e.causedBy kind = true ↔ e.counter? = some counter := by
  unfold causedBy counter?
  cases e.cause? with
  | none => exact ⟨nofun, nofun⟩
  | some cause => exact hkind cause

/-- An illegal flow is no misuse of branches. -/
theorem causedBy_of_violation (h : e.violation?.isSome) :
    e.causedBy Fault.isViolation = true ∧ e.causedBy Fault.isWrongExit = false := by
  cases e with
  | fault index frame cause =>
      cases cause with
      | illegalFlow target reason => exact ⟨rfl, rfl⟩
      | _ => cases h
  | _ => cases h

end ReplayFault

/-- A failure of the monitor is counted where it is reported as a fault of the replay. -/
theorem Outcome.Counted.asFault {σ α : Type} {o : Outcome Fault σ α}
    (h : o.Counted Fault.counter?) (index : Nat) (frame : String) :
    (o.mapError (.fault index frame)).Counted ReplayFault.counter? :=
  h.mapError fun _ => rfl

theorem Report.afterStep_eq_error {report : Report} {result : Except ReplayFault Unit}
    {e : ReplayFault} (h : report.afterStep result = .error e) : result = .error e := by
  cases result with
  | ok done => cases h
  | error e' =>
      unfold Report.afterStep at h
      dsimp only at h
      split at h
      · cases h
      · cases h
        rfl

theorem Report.stepsExecuted_afterStep {report report' : Report}
    {result : Except ReplayFault Unit} (h : report.afterStep result = .ok report') :
    report'.stepsExecuted = report.stepsExecuted + 1 := by
  cases result with
  | ok done =>
      cases h
      rfl
  | error e =>
      unfold Report.afterStep at h
      dsimp only at h
      split at h
      · cases h
        rfl
      · cases h

variable {L : Type} [Level L]

namespace Replay

/-! ## §1  Every step is counted -/

section Step

variable (r : Replay L) (index : Nat) (frame : String)

theorem counted_ensureOpen : (r.ensureOpen index frame).Counted ReplayFault.counter? := by
  unfold ensureOpen
  split
  · exact counted_ok _ _
  · split
    · exact counted_fail rfl
    · exact counted_noted rfl

theorem counted_session : (r.session index frame).Counted ReplayFault.counter? := by
  refine (r.counted_ensureOpen index frame).andThen fun _ r => ?_
  split
  · exact counted_ok _ _
  · exact counted_fail rfl

theorem counted_onSession {α : Type}
    {act : Session L → Heap L → Outcome Fault (Session L × Heap L) α}
    (h : ∀ s heap, (act s heap).Counted Fault.counter?) :
    (r.onSession index frame act).Counted ReplayFault.counter? :=
  (r.counted_session index frame).andThen fun s r =>
    ((h s r.heap).asFault index frame).mapState _

theorem counted_call (callee : String) (arguments : List (Operand L)) :
    (r.call index frame callee arguments).Counted ReplayFault.counter? := by
  unfold call
  split
  · exact counted_fail rfl
  · refine (r.counted_session index frame).andThen fun caller r => ?_
    have hlevels := caller.counted_argumentLevels r.heap arguments
    exact ((hlevels.asFault index frame).mapState _).andThen fun levels r => counted_noted rfl

omit [Level L] in
theorem counted_finish : (r.finish index frame).Counted ReplayFault.counter? := by
  unfold finish
  split
  · exact counted_ok _ _
  · rename_i s _
    exact ((s.counted_close.asFault index frame).mapState _).andThen fun _ r => counted_ok _ _

theorem counted_close : (r.close index frame).Counted ReplayFault.counter? :=
  (r.counted_session index frame).andThen fun s r =>
    ((s.counted_checkClose r).asFault index frame).andThen fun _ r => r.counted_finish index frame

theorem counted_takeReturn (callee name : String) :
    (r.takeReturn index frame callee name).Counted ReplayFault.counter? := by
  unfold takeReturn
  split
  · exact counted_fail rfl
  · exact (r.counted_onSession index frame (Operation.counted_perform _)).map _

/-- **Every step of a trace is counted.** -/
theorem counted_apply (step : Step L) : (r.apply index step).Counted ReplayFault.counter? := by
  unfold apply
  cases step.op with
  | action action => exact (r.counted_onSession index step.frame action.counted_perform).map _
  | call callee arguments => exact r.counted_call index step.frame callee arguments
  | close => exact r.counted_close index step.frame
  | takeReturn callee name => exact r.counted_takeReturn index step.frame callee name

end Step

/-! ## §2  What a run writes down -/

/-- What comes of steps, one after the other, the first of which has number `index`. -/
def outcomes (r : Replay L) (index : Nat) :
    List (Step L) → List (Outcome ReplayFault (Replay L) Unit)
  | [] => []
  | step :: steps => r.apply index step :: (r.apply index step).state.outcomes (index + 1) steps

variable {r r' : Replay L} {index : Nat} {done : List (Step L)} {violations : List Violation}

theorem outcomes_append (r : Replay L) (index : Nat) (done rest : List (Step L)) :
    r.outcomes index (done ++ rest) =
      r.outcomes index done ++ (r.after index done).outcomes (index + done.length) rest := by
  induction done generalizing r index with
  | nil => rfl
  | cons step done ih =>
      show r.apply index step :: (r.apply index step).state.outcomes (index + 1) (done ++ rest) = _
      rw [ih, List.length_cons, Nat.add_right_comm, Nat.add_assoc]
      rfl

theorem counted_outcomes (r : Replay L) (index : Nat) (steps : List (Step L)) :
    ∀ o ∈ r.outcomes index steps, o.Counted ReplayFault.counter? := by
  induction steps generalizing r index with
  | nil => exact List.forall_mem_nil _
  | cons step steps ih =>
      exact List.forall_mem_cons.2 ⟨r.counted_apply index step, ih _ _⟩

/-- A replay writes down what its first `n` steps do, where `n` can be told from its result. -/
theorem journal_replaySteps (r : Replay L) (index : Nat) (report : Report)
    (steps : List (Step L)) :
    ∃ n, (r.replaySteps index report steps).journal =
        (r.outcomes index (steps.take n)).flatMap (·.journal) ∧
      (∀ report', (r.replaySteps index report steps).result = .ok report' →
        report'.stepsExecuted = report.stepsExecuted + n) ∧
      ∀ e, (r.replaySteps index report steps).result = .error e → e.step + 1 = index + n := by
  induction steps generalizing r index report with
  | nil =>
      refine ⟨0, rfl, ?_, ?_⟩
      · intro report' hresult
        cases hresult
        rfl
      · intro e hresult
        cases hresult
  | cons step steps ih =>
      unfold replaySteps
      dsimp only
      cases hafter : report.afterStep (r.apply index step).result with
      | error e =>
          obtain ⟨fault, rfl, hstops⟩ := stops_of_error (Report.afterStep_eq_error hafter)
          refine ⟨1, (List.append_nil _).symm, ?_, ?_⟩
          · intro report' hresult
            cases hresult
          · intro e' hresult
            cases hresult
            rw [hstops.step_eq]
      | ok report₁ =>
          have hexecuted := Report.stepsExecuted_afterStep hafter
          dsimp only
          split
          · obtain ⟨n, hjournal, hok, herror⟩ := ih (r.apply index step).state (index + 1) report₁
            refine ⟨n + 1, ?_, ?_, ?_⟩
            · rw [List.take_succ_cons]
              exact congrArg ((r.apply index step).journal ++ ·) hjournal
            · intro report' hresult
              rw [hok report' hresult, hexecuted, Nat.add_assoc, Nat.add_comm 1]
            · intro e hresult
              rw [herror e hresult, Nat.add_assoc, Nat.add_comm 1]
          · refine ⟨1, (List.append_nil _).symm, ?_, ?_⟩
            · intro report' hresult
              cases hresult
              exact hexecuted
            · intro e hresult
              cases hresult

/-- The line that ends a run, if it comes to a report. -/
def closing : Except ReplayFault Report → Journal
  | .ok report => [finishedNote report]
  | .error _ => []

/-- **A run writes down what the steps do that it carries out**, one after the other, and a
closing line. -/
theorem journal_run (r : Replay L) (trace : Trace L) :
    (r.run trace).journal =
      (r.reset.outcomes 0 (r.executed trace)).flatMap (·.journal) ++
        closing (r.run trace).result := by
  obtain ⟨n, hjournal, hok, herror⟩ := journal_replaySteps r.reset 0 .empty trace.steps
  have hsame : (r.run trace).result = (r.reset.replaySteps 0 .empty trace.steps).result :=
    congrArg Prod.fst (ending_run r trace)
  have hexecuted : r.executed trace = trace.steps.take n := by
    unfold executed
    rw [hsame]
    cases hresult : (r.reset.replaySteps 0 .empty trace.steps).result with
    | ok report =>
        have hn := hok report hresult
        rw [Report.empty, Nat.zero_add] at hn
        simp only [hn]
    | error e =>
        have hn := herror e hresult
        rw [Nat.zero_add] at hn
        simp only [hn]
  rw [hexecuted, ← hjournal, hsame]
  unfold run Outcome.andThen
  cases hresult : (r.reset.replaySteps 0 .empty trace.steps).result with
  | ok report => rfl
  | error e => exact (List.append_nil _).symm

/-- **A counter counts the failures that belong to it** among the steps that a run carries out. -/
theorem count_run (r : Replay L) (trace : Trace L) {counter : Counter} {kind : Fault → Bool}
    (hkind : ∀ cause : Fault, kind cause = true ↔ cause.counter? = some counter) :
    (r.run trace).journal.count counter =
      (r.reset.outcomes 0 (r.executed trace)).countP (·.fails (·.causedBy kind)) := by
  have hclosing : Journal.ticks (closing (r.run trace).result) = [] := by
    cases (r.run trace).result <;> rfl
  rw [← Outcome.count_flatMap_journal (counted_outcomes _ _ _)
      fun e => ReplayFault.causedBy_iff hkind,
    journal_run, Journal.count_eq, Journal.count_eq, Journal.ticks_append, hclosing,
    List.append_nil]

/-- Steps that advance fail with illegal flows only. -/
theorem Advances.countP_fails (h : Advances r index done violations r')
    {kind : ReplayFault → Bool} {counts : Bool}
    (hkind : ∀ e : ReplayFault, e.violation?.isSome → kind e = counts) :
    (r.outcomes index done).countP (·.fails kind) = if counts then violations.length else 0 := by
  induction h with
  | done => simp [outcomes]
  | @does r r₁ r' index step steps violations does rest ih =>
      obtain ⟨hresult, hstate⟩ := apply_of_does does index
      have hnone : (r.apply index step).fails kind = false := by
        unfold Outcome.fails
        rw [hresult]
      unfold outcomes
      rw [List.countP_cons, hnone, hstate, ih]
      simp
  | @violates r r' index step steps fault v violations stops violation rest ih =>
      obtain ⟨hresult, hstate⟩ := apply_of_stops stops index
      have hone : (r.apply index step).fails kind = counts := by
        unfold Outcome.fails
        rw [hresult]
        exact hkind (fault index) (by rw [violation]; rfl)
      unfold outcomes
      rw [List.countP_cons, hone, hstate, ih]
      cases counts <;> rfl

/-! ## §3  Runs -/

/-- A run that comes to a report has ticked once for each violation. -/
theorem count_illegalFlows_of_ok {trace : Trace L} {report : Report}
    (h : (r.run trace).result = .ok report) :
    (r.run trace).journal.count .illegalFlows = report.violations.length := by
  rw [count_run r trace fun _ => Fault.isViolation_iff,
    (advances_executed h).2.countP_fails fun e he => (e.causedBy_of_violation he).1]
  rfl

/-- A branch left in the wrong order ends the run. -/
theorem count_wrongExits_run (r : Replay L) (trace : Trace L) :
    (r.run trace).journal.count .wrongExits =
      if (r.run trace).fails (·.causedBy Fault.isWrongExit) then 1 else 0 := by
  have hkind : ∀ e : ReplayFault, e.violation?.isSome → e.causedBy Fault.isWrongExit = false :=
    fun e he => (e.causedBy_of_violation he).2
  rw [count_run r trace fun _ => Fault.isWrongExit_iff]
  cases hresult : (r.run trace).result with
  | ok report =>
      rw [(advances_executed hresult).2.countP_fails hkind]
      unfold Outcome.fails
      rw [hresult]
      rfl
  | error e =>
      obtain ⟨done, step, violations, r₁, fault, hexecuted, hadvances, hstops, hfault, -⟩ :=
        executed_of_abort hresult
      have hlast : r₁.outcomes done.length [step] = [r₁.apply done.length step] := rfl
      rw [hexecuted, outcomes_append, List.countP_append, hadvances.countP_fails hkind,
        hadvances.after_eq, Nat.zero_add, hlast, List.countP_singleton]
      unfold Outcome.fails
      rw [hresult, (apply_of_stops hstops _).1, hfault]
      exact Nat.zero_add _

/-- **The counters match what has failed.** When a trace is replayed, whatever the settings and
whatever earlier runs have left, the counter of illegal flows ticks once for each step carried
out that ends in one, even if the run is aborted after it; if the run comes to a report, this
lists as many. The other counter ticks once if the run is aborted because a branch was left in
the wrong order, and else not at all. In any sequence of requests to a monitor, each counter
ticks once for each request that fails so. -/
theorem counters_match (r : Replay L) (trace : Trace L) (m : Monitor L)
    (requests : List (String × Monitor.Request L)) :
    ((r.run trace).journal.count .illegalFlows =
        (r.reset.outcomes 0 (r.executed trace)).countP
          (·.fails (·.causedBy Fault.isViolation)) ∧
      (∀ report, (r.run trace).result = .ok report →
        (r.executed trace).length = report.stepsExecuted ∧
          (r.run trace).journal.count .illegalFlows = report.violations.length) ∧
      (r.run trace).journal.count .wrongExits =
        if (r.run trace).fails (·.causedBy Fault.isWrongExit) then 1 else 0) ∧
    Journal.count ((m.outcomes requests).flatMap (·.journal)) .illegalFlows =
      (m.outcomes requests).countP (·.fails Fault.isViolation) ∧
    Journal.count ((m.outcomes requests).flatMap (·.journal)) .wrongExits =
      (m.outcomes requests).countP (·.fails Fault.isWrongExit) := by
  refine ⟨⟨?_, ?_, count_wrongExits_run r trace⟩, ?_, ?_⟩
  · exact count_run r trace fun _ => Fault.isViolation_iff
  · intro report hresult
    exact ⟨(advances_executed hresult).1, count_illegalFlows_of_ok hresult⟩
  · exact m.count_outcomes requests fun _ => Fault.isViolation_iff
  · exact m.count_outcomes requests fun _ => Fault.isWrongExit_iff

section Witness

/-- Two secrets are kept from a public sink; then a branch is left that was never entered. -/
def leaksThenWrongExit : Trace TwoLevel where
  description := ""
  steps :=
    [⟨"main", .action (.declare "x")⟩, ⟨"main", .action (.label "x" .high)⟩,
      ⟨"main", .action (.checkSink "x" .low)⟩, ⟨"main", .action (.checkBelowTop "x")⟩,
      ⟨"main", .action (.exit ⟨"a"⟩)⟩, ⟨"main", .action (.checkBelowTop "x")⟩]

/-- Two sessions, both of which leave branches that they have not entered. The later requests to
the session that has closed are passed over. -/
def twoSessions : List (String × Monitor.Request TwoLevel) :=
  [("main", .openRoot {} none false), ("main", .perform (.exit ⟨"a"⟩)),
    ("main", .call "f" [.high] "f"), ("f", .perform (.bindArgument 0 "x")),
    ("f", .perform (.checkSink "x" .low)), ("f", .perform (.exit ⟨"b"⟩)), ("f", .close),
    ("f", .perform (.exit ⟨"c"⟩)), ("main", .perform (.write "y" .low))]

theorem counters_match_leaksThenWrongExit :
    ((new {} true).run leaksThenWrongExit).result =
        .error (.fault 4 "main" (.wrongExit none ⟨"a"⟩)) ∧
      ((new {} true).run leaksThenWrongExit).journal.count .illegalFlows = 2 ∧
      ((new {} true).run leaksThenWrongExit).journal.count .wrongExits = 1 ∧
      ((new {} false).run leaksThenWrongExit).result =
        .ok ⟨3, [⟨2, "main", "Illegal flow to local 'x': level HIGH exceeds sink bound LOW"⟩]⟩ ∧
      ((new {} false).run leaksThenWrongExit).journal.count .illegalFlows = 1 ∧
      Journal.count ((Monitor.empty.outcomes twoSessions).flatMap (·.journal)) .illegalFlows = 1 ∧
      Journal.count ((Monitor.empty.outcomes twoSessions).flatMap (·.journal)) .wrongExits = 2 := by
  have habort : ((new {} true).run leaksThenWrongExit).result =
      .error (.fault 4 "main" (.wrongExit none ⟨"a"⟩)) := by rfl
  have hreport : ((new {} false).run leaksThenWrongExit).result =
      .ok ⟨3, [⟨2, "main", "Illegal flow to local 'x': level HIGH exceeds sink bound LOW"⟩]⟩ := by
    rfl
  obtain ⟨⟨hflows, -, hwrong⟩, hasked, hleft⟩ :=
    counters_match (new {} true) leaksThenWrongExit .empty twoSessions
  obtain ⟨⟨-, hlists, -⟩, -, -⟩ := counters_match (new {} false) leaksThenWrongExit .empty twoSessions
  refine ⟨habort, hflows.trans (by rfl), ?_, hreport, (hlists _ hreport).2,
    hasked.trans (by rfl), hleft.trans (by rfl)⟩
  rw [hwrong]
  unfold Outcome.fails
  rw [habort]
  rfl

end Witness

end Replay

end InfoFlow
