import InfoFlow.Level.Chain
import InfoFlow.Proofs.Replay.LegalPart

/-!
# Stopping at the first illegal flow

A replay may go on after an illegal flow or stop there. Which steps of a trace end
in an illegal flow is a matter of the trace alone (`violationAt?`). A replay that
goes on lists exactly these steps, in their order (`Advances.violations_eq`); one
that stops executes the trace up to the first of them. So the report of the second
can be read off what the first comes to, whatever earlier runs have left in either
of them (`run_stopping`).
-/

namespace InfoFlow

variable {L : Type} [Level L]

/-! ## §1  The steps that end in an illegal flow -/

/-- The illegal flow that a step ended in, if that is what its result says. -/
def violationOf? : Except ReplayFault Unit → Option Violation
  | .ok () => none
  | .error e => e.violation?

/-- The report of the steps up to the first illegal flow: this and no other is in it. -/
def Report.upToFirst (report : Report) : Report :=
  match report.violations with
  | [] => report
  | v :: _ => ⟨v.step + 1, [v]⟩

namespace Replay

variable {r r₁ r' going stopping : Replay L} {step : Step L} {steps done rest : List (Step L)}
  {fault : Nat → ReplayFault} {index : Nat} {v : Violation} {violations : List Violation}
  {trace : Trace L}

/-- The illegal flow in which the step at position `i` ends when these steps are
carried out one after the other, the first of them under number `index`. -/
def violationAt? (r : Replay L) (index : Nat) (steps : List (Step L)) (i : Nat) :
    Option Violation :=
  steps[i]?.bind fun step =>
    violationOf? ((r.after index (steps.take i)).apply (index + i) step).result

/-- Step `v.step` is the first one of a run that ends in an illegal flow; this is `v`. -/
def FirstViolation (r : Replay L) (trace : Trace L) (v : Violation) : Prop :=
  r.reset.violationAt? 0 trace.steps v.step = some v ∧
    ∀ i < v.step, r.reset.violationAt? 0 trace.steps i = none

theorem violationAt?_cons_zero (r : Replay L) (index : Nat) (step : Step L)
    (steps : List (Step L)) :
    r.violationAt? index (step :: steps) 0 = violationOf? (r.apply index step).result :=
  rfl

theorem violationAt?_cons_succ (r : Replay L) (index : Nat) (step : Step L)
    (steps : List (Step L)) (i : Nat) :
    r.violationAt? index (step :: steps) (i + 1) =
      (r.apply index step).state.violationAt? (index + 1) steps i := by
  have hindex : index + (i + 1) = index + 1 + i := by omega
  unfold violationAt?
  rw [List.getElem?_cons_succ, List.take_succ_cons, hindex]
  rfl

theorem Stops.frame_of_violation (h : Stops r step fault r')
    (hviolation : (fault index).violation? = some v) : v.frame = step.frame := by
  cases h with
  | calleeOpen found => cases hviolation
  | notReturned absent => cases hviolation
  | closed ready absent opened => cases hviolation
  | _ =>
      obtain ⟨-, rfl⟩ := violation?_fault hviolation
      rfl

/-- A violation names the number and the frame of the step that ended in it. -/
theorem step_of_violationAt? {i : Nat} (h : r.violationAt? index steps i = some v) :
    v.step = index + i ∧ ∃ step, steps[i]? = some step ∧ v.frame = step.frame := by
  obtain ⟨step, hstep, hviolation⟩ := Option.bind_eq_some_iff.1 h
  cases hresult : ((r.after index (steps.take i)).apply (index + i) step).result with
  | ok done =>
      rw [hresult] at hviolation
      cases hviolation
  | error e =>
      rw [hresult] at hviolation
      obtain ⟨fault, rfl, hstops⟩ := stops_of_error hresult
      have hviolation : (fault (index + i)).violation? = some v := hviolation
      exact ⟨(hstops.eq_of_violation hviolation).2, step, hstep,
        hstops.frame_of_violation hviolation⟩

/-- **A replay that goes on lists the steps that end in an illegal flow**, in their
order. -/
theorem Advances.violations_eq (h : Advances r index steps violations r') :
    violations = (List.range steps.length).filterMap (r.violationAt? index steps) := by
  -- the first step adds what it ends in; the later ones move up by one position
  have hcons : ∀ (r : Replay L) (index : Nat) (step : Step L) (steps : List (Step L)),
      (List.range (step :: steps).length).filterMap (r.violationAt? index (step :: steps)) =
        (violationOf? (r.apply index step).result).toList ++ (List.range steps.length).filterMap
          ((r.apply index step).state.violationAt? (index + 1) steps) := by
    intro r index step steps
    rw [List.length_cons, List.range_succ_eq_map, List.filterMap_cons, List.filterMap_map,
      violationAt?_cons_zero]
    have htail : r.violationAt? index (step :: steps) ∘ Nat.succ =
        (r.apply index step).state.violationAt? (index + 1) steps :=
      funext fun i => violationAt?_cons_succ r index step steps i
    rw [htail]
    cases violationOf? (r.apply index step).result <;> rfl
  induction h with
  | done => rfl
  | @does r r₁ r' index step steps violations does rest ih =>
      obtain ⟨hresult, hstate⟩ := apply_of_does does index
      rw [hcons, hresult, hstate, ← ih]
      rfl
  | @violates r r' index step steps fault v violations stops violation rest ih =>
      obtain ⟨hresult, hstate⟩ := apply_of_stops stops index
      rw [hcons, hresult, hstate, ← ih]
      show _ = (fault index).violation?.toList ++ violations
      rw [violation]
      rfl

/-! ## §2  Up to the first illegal flow -/

theorem DoesAll.violationAt?_eq_none (h : DoesAll r done r₁) {i : Nat} (hi : i < done.length) :
    r.violationAt? index (done ++ rest) i = none := by
  induction h generalizing index i with
  | nil => exact absurd hi (Nat.not_lt_zero i)
  | @cons r r₁ r' step steps does later ih =>
      obtain ⟨hresult, hstate⟩ := apply_of_does does index
      rw [List.cons_append]
      cases i with
      | zero => rw [violationAt?_cons_zero, hresult, violationOf?]
      | succ i =>
          rw [violationAt?_cons_succ, hstate]
          exact ih (Nat.lt_of_succ_lt_succ hi)

theorem Stops.violationAt?_eq (hstops : Stops r₁ step fault r') (h : DoesAll r done r₁) :
    r.violationAt? index (done ++ step :: rest) done.length =
      (fault (index + done.length)).violation? := by
  have hafter : r.after index done = r₁ := (h.advances index).after_eq
  unfold violationAt?
  rw [List.getElem?_append_right (Nat.le_refl _), Nat.sub_self, List.getElem?_cons_zero,
    Option.bind_some, List.take_left, hafter, (apply_of_stops hstops _).1]
  rfl

/-- The steps before the first illegal flow succeed. -/
theorem Advances.exists_first (h : Advances r index steps (v :: violations) r') :
    ∃ done step rest r₁ fault, steps = done ++ step :: rest ∧ DoesAll r done r₁ ∧
      Stops r₁ step fault r₁ ∧ (fault (index + done.length)).violation? = some v := by
  generalize hall : v :: violations = all at h
  induction h with
  | done => cases hall
  | @does r r₁ r' index step steps violations does later ih =>
      obtain ⟨done, last, rest, r₂, fault, rfl, hdoes, hstops, hviolation⟩ := ih hall
      refine ⟨step :: done, last, rest, r₂, fault, rfl, .cons does hdoes, hstops, ?_⟩
      rw [List.length_cons, ← hviolation, Nat.add_right_comm, Nat.add_assoc]
  | @violates r r' index step steps fault v violations stops violation later ih =>
      cases hall
      exact ⟨[], step, steps, r, fault, rfl, .nil, stops, violation⟩

theorem DoesAll.keepGoing_eq (h : DoesAll r done r₁) : r₁.keepGoing = r.keepGoing := by
  induction h with
  | nil => rfl
  | cons does rest ih => rw [ih, does.keepGoing_eq]

/-- A run that stops at illegal flows ends at the first one. -/
theorem result_run_of_first (hstopping : stopping.keepGoing = false)
    (hsteps : trace.steps = done ++ step :: rest) (h : DoesAll stopping.reset done r₁)
    (hstops : Stops r₁ step fault r₁) (hviolation : (fault done.length).violation? = some v) :
    (stopping.run trace).result = .ok ⟨done.length + 1, [v]⟩ := by
  have hstop : r₁.keepGoing = false := h.keepGoing_eq.trans hstopping
  have hending : (stopping.run trace).ending = (.ok ⟨done.length + 1, [v]⟩, r₁) := by
    rw [← Nat.zero_add done.length] at hviolation
    rw [ending_run, hsteps, h.ending_replaySteps, hstops.ending_replaySteps_violation hviolation,
      hstop]
    simp [Report.empty]
  exact congrArg Prod.fst hending

/-! ## §3  The two replays -/

omit [Level L] in
theorem reset_eq_withKeepGoing (hpolicy : stopping.policy = going.policy)
    (hstopping : stopping.keepGoing = false) :
    stopping.reset = going.reset.withKeepGoing false := by
  unfold reset withKeepGoing
  rw [hpolicy, hstopping]
  rfl

/-- Where a replay advances beyond an illegal flow, one that stops at illegal flows
has come to a report before. -/
theorem Advances.run_of_first (h : Advances going.reset 0 done (v :: violations) r')
    (hpolicy : stopping.policy = going.policy) (hstopping : stopping.keepGoing = false)
    (hsteps : trace.steps = done ++ rest) :
    v.step < done.length ∧ FirstViolation going trace v ∧
      (stopping.run trace).result = .ok ⟨v.step + 1, [v]⟩ := by
  obtain ⟨early, step, late, r₁, fault, rfl, hdoes, hstops, hviolation⟩ := h.exists_first
  rw [Nat.zero_add] at hviolation
  have hstep : v.step = early.length := (hstops.eq_of_violation hviolation).2
  have hsplit : trace.steps = early ++ step :: (late ++ rest) := by
    rw [hsteps, List.append_assoc, List.cons_append]
  unfold FirstViolation
  rw [hstep]
  refine ⟨?_, ⟨?_, ?_⟩, ?_⟩
  · rw [List.length_append, List.length_cons]
    omega
  · rw [hsplit, hstops.violationAt?_eq hdoes, Nat.zero_add, hviolation]
  · intro i hi
    rw [hsplit]
    exact hdoes.violationAt?_eq_none hi
  · have hdoes' : DoesAll stopping.reset early (r₁.withKeepGoing false) := by
      rw [reset_eq_withKeepGoing hpolicy hstopping]
      exact hdoes.withKeepGoing false
    exact result_run_of_first hstopping hsplit hdoes' (hstops.withKeepGoing false) hviolation

/-- A run that goes on executes the whole trace. -/
theorem advances_of_going {report : Report} (hgoing : going.keepGoing = true)
    (h : (going.run trace).result = .ok report) :
    report.stepsExecuted = trace.steps.length ∧
      Advances going.reset 0 trace.steps report.violations (going.run trace).state := by
  obtain ⟨done, rest, hsteps, hexecuted, hadvances, hend⟩ := advances_of_run h
  -- it can only have ended where the trace ends
  have hrest : rest = [] := hend.resolve_right fun hstop => by
    rw [hgoing] at hstop
    exact Bool.noConfusion hstop.1
  rw [hrest, List.append_nil] at hsteps
  rw [hsteps]
  exact ⟨hexecuted, hadvances⟩

theorem result_run_of_ok {report : Report} (hpolicy : stopping.policy = going.policy)
    (hgoing : going.keepGoing = true) (hstopping : stopping.keepGoing = false)
    (h : (going.run trace).result = .ok report) :
    (stopping.run trace).result = .ok report.upToFirst := by
  obtain ⟨hexecuted, hadvances⟩ := advances_of_going hgoing h
  unfold Report.upToFirst
  cases hviolations : report.violations with
  | nil =>
      rw [hviolations] at hadvances
      have hdoes : DoesAll stopping.reset trace.steps
          ((going.run trace).state.withKeepGoing false) := by
        rw [reset_eq_withKeepGoing hpolicy hstopping]
        exact hadvances.doesAll_of_clean.withKeepGoing false
      have hreport : report = ⟨trace.steps.length, []⟩ := by
        rw [← hexecuted, ← hviolations]
      show _ = Except.ok report
      rw [hreport]
      exact congrArg Prod.fst hdoes.ending_run
  | cons v violations =>
      rw [hviolations] at hadvances
      exact (hadvances.run_of_first hpolicy hstopping (List.append_nil _).symm).2.2

theorem result_run_of_error {e : ReplayFault} (hpolicy : stopping.policy = going.policy)
    (hstopping : stopping.keepGoing = false) (h : (going.run trace).result = .error e) :
    e.step < trace.steps.length ∧
      ((∀ i < e.step, going.reset.violationAt? 0 trace.steps i = none) ∧
          (stopping.run trace).result = .error e ∨
        ∃ v, v.step < e.step ∧ FirstViolation going trace v ∧
          (stopping.run trace).result = .ok ⟨v.step + 1, [v]⟩) := by
  obtain ⟨done, step, rest, violations, r₁, fault, hsteps, hadvances, -, hstops, hfault, hnone⟩ :=
    advances_of_abort h
  have hstep : e.step = done.length := by
    rw [← hfault, hstops.step_eq]
  rw [hstep]
  constructor
  · rw [hsteps, List.length_append, List.length_cons]
    omega
  · cases violations with
    | nil =>
        -- every step before has succeeded, so both replays meet the fault
        have hdoes := hadvances.doesAll_of_clean
        refine Or.inl ⟨fun i hi => ?_, ?_⟩
        · rw [hsteps]
          exact hdoes.violationAt?_eq_none hi
        · have hdoes' : DoesAll stopping.reset done (r₁.withKeepGoing false) := by
            rw [reset_eq_withKeepGoing hpolicy hstopping]
            exact hdoes.withKeepGoing false
          rw [← hfault] at hnone
          rw [← hfault]
          exact congrArg Prod.fst
            (hdoes'.ending_run_stops hsteps (hstops.withKeepGoing false) hnone)
    | cons v violations =>
        exact Or.inr ⟨v, hadvances.run_of_first hpolicy hstopping hsteps⟩

theorem pairwise_violations (r : Replay L) (steps : List (Step L)) :
    (((List.range steps.length).filterMap (r.violationAt? 0 steps)).map (·.step)).Pairwise
      (· < ·) := by
  rw [List.pairwise_map, List.pairwise_filterMap]
  refine List.pairwise_lt_range.imp ?_
  intro i j hij v hv w hw
  rw [(step_of_violationAt? hv).1, (step_of_violationAt? hw).1]
  omega

/-- **Stopping at illegal flows and going on after them agree.** Let a trace be
replayed twice under one policy, by a replay that goes on after illegal flows and by
one that stops there, whatever earlier runs have left in either. If the first comes
to a report, this lists the steps that end in an illegal flow, by their numbers and
frames, and the second comes to the report of the steps up to the first of them. If
the first is aborted, so is the second, by the same fault, unless a step before ends
in an illegal flow; then it comes to the report of the steps up to there. -/
theorem run_stopping (hpolicy : stopping.policy = going.policy) (hgoing : going.keepGoing = true)
    (hstopping : stopping.keepGoing = false) (trace : Trace L) :
    (∀ report, (going.run trace).result = .ok report →
      report.stepsExecuted = trace.steps.length ∧
        report.violations =
          (List.range trace.steps.length).filterMap (going.reset.violationAt? 0 trace.steps) ∧
        (report.violations.map (·.step)).Pairwise (· < ·) ∧
        (∀ v ∈ report.violations,
          ∃ step, trace.steps[v.step]? = some step ∧ v.frame = step.frame) ∧
        (stopping.run trace).result = .ok report.upToFirst) ∧
    ∀ e, (going.run trace).result = .error e →
      e.step < trace.steps.length ∧
        ((∀ i < e.step, going.reset.violationAt? 0 trace.steps i = none) ∧
            (stopping.run trace).result = .error e ∨
          ∃ v, v.step < e.step ∧ FirstViolation going trace v ∧
            (stopping.run trace).result = .ok ⟨v.step + 1, [v]⟩) := by
  constructor
  · intro report hresult
    obtain ⟨hexecuted, hadvances⟩ := advances_of_going hgoing hresult
    have hlists := hadvances.violations_eq
    refine ⟨hexecuted, hlists, ?_, ?_, result_run_of_ok hpolicy hgoing hstopping hresult⟩
    · rw [hlists]
      exact pairwise_violations going.reset trace.steps
    · intro v hv
      rw [hlists] at hv
      obtain ⟨i, -, hviolation⟩ := List.mem_filterMap.1 hv
      obtain ⟨hstep, hframe⟩ := step_of_violationAt? hviolation
      rw [hstep, Nat.zero_add]
      exact hframe
  · intro e hresult
    exact result_run_of_error hpolicy hstopping hresult

section Witness

/-- Two secrets are kept from a public sink; then a local is assigned that was never
declared. -/
def twoLeaksThenMisuse : Trace TwoLevel where
  description := ""
  steps :=
    [⟨"main", .action (.declare "x")⟩, ⟨"main", .action (.label "x" .high)⟩,
      ⟨"main", .action (.checkSink "x" .low)⟩, ⟨"main", .action (.checkBelowTop "x")⟩,
      ⟨"main", .action (.write "z" [.local "x"])⟩]

/-- A replay that goes on after illegal flows, left as an aborted run has left it. -/
def afterMisuse : Replay TwoLevel := ((new {} true).run twoLeaksThenMisuse).state

theorem run_stopping_afterMisuse :
    afterMisuse.openFrames = ["main"] ∧
      ((afterMisuse.run twoLeaksThenMisuse).result =
        .error (.fault 4 "main" (.unregistered (.local "z")))) ∧
      ∃ v, v.step < 4 ∧ FirstViolation afterMisuse twoLeaksThenMisuse v ∧
        ((new {} false).run twoLeaksThenMisuse).result = .ok ⟨v.step + 1, [v]⟩ := by
  have habort : (afterMisuse.run twoLeaksThenMisuse).result =
      .error (.fault 4 "main" (.unregistered (.local "z"))) := by rfl
  have hstop : ((new {} false).run twoLeaksThenMisuse).result =
      .ok ⟨3, [⟨2, "main", "Illegal flow to local 'x': level HIGH exceeds sink bound LOW"⟩]⟩ := by
    rfl
  have hpolicy : (new {} false : Replay TwoLevel).policy = afterMisuse.policy := rfl
  have hgoing : afterMisuse.keepGoing = true := rfl
  have hstopping : (new {} false : Replay TwoLevel).keepGoing = false := rfl
  obtain ⟨-, ⟨-, habort'⟩ | hfirst⟩ :=
    (run_stopping hpolicy hgoing hstopping twoLeaksThenMisuse).2 _ habort
  · rw [hstop] at habort'
    cases habort'
  · exact ⟨rfl, habort, hfirst⟩

end Witness

end Replay

end InfoFlow
