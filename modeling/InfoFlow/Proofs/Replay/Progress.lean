import InfoFlow.Proofs.Replay.Rules
import InfoFlow.Proofs.Session.Reading

/-!
# How far a replay gets

A replay carries out the steps of a trace one after the other. `DoesAll` says
that they all succeed; `Advances` admits illegal flows between them, which change
nothing (`Stops.eq_of_violation`). A replay that comes to a report has advanced
through the steps that it executed (`advances_of_ok`), one that is aborted has
advanced as far as the step that stopped it (`advances_of_error`); and steps that
advance do so whenever they are replayed (`Advances.ending_replaySteps`).
-/

namespace InfoFlow

/-- What an outcome comes to, its notes aside. -/
def Outcome.ending {ε σ α : Type} (o : Outcome ε σ α) : Except ε α × σ := (o.result, o.state)

/-- The first `n` steps of a trace. -/
def Trace.take {L : Type} (trace : Trace L) (n : Nat) : Trace L :=
  { trace with steps := trace.steps.take n }

namespace Replay

variable {L : Type} [Level L] {r r₁ r' : Replay L} {frame : String} {s : Session L} {step : Step L}
  {steps done rest : List (Step L)} {fault : Nat → ReplayFault} {index : Nat} {v : Violation}
  {violations : List Violation}

/-! ## §1  Illegal flows -/

/-- A frame with a declared local has not just been opened. -/
theorem Acts.eq_of_declared (h : Acts r frame s r₁) {name : String} {slot : LocalLabel L}
    (found : s.locals.find? name = some slot) : r₁ = r := by
  cases h with
  | isOpen hopen => rfl
  | opens absent fresh =>
      have hnone : (Locals.empty : Locals L).find? name = none := Locals.find?_empty name
      rw [show (Locals.empty : Locals L).find? name = some slot from found] at hnone
      cases hnone

theorem violation?_fault {cause : Fault}
    (h : (ReplayFault.fault index frame cause).violation? = some v) :
    cause.isViolation = true ∧ v = ⟨index, frame, cause.message⟩ := by
  unfold ReplayFault.violation? at h
  dsimp only at h
  split at h
  · rename_i hviolation
    cases h
    exact ⟨hviolation, rfl⟩
  · cases h

/-- **An illegal flow changes nothing**: not even a root frame is opened. -/
theorem Stops.eq_of_violation (h : Stops r step fault r')
    (hviolation : (fault index).violation? = some v) : r' = r ∧ v.step = index := by
  cases h with
  | calleeOpen found => cases hviolation
  | notReturned absent => cases hviolation
  | closed ready absent opened => cases hviolation
  | unread acts unread =>
      obtain ⟨hcause, rfl⟩ := violation?_fault hviolation
      rw [Session.not_violation_of_joinOperands unread] at hcause
      cases hcause
  | action acts operands fault =>
      obtain ⟨hcause, rfl⟩ := violation?_fault hviolation
      obtain ⟨name, slot, hfound⟩ := fault.declared hcause
      exact ⟨acts.eq_of_declared hfound, rfl⟩
  | call absent acts unread =>
      obtain ⟨hcause, rfl⟩ := violation?_fault hviolation
      rw [Session.not_violation_of_argumentLevels unread] at hcause
      cases hcause
  | @close frame s _ cause acts unbalanced =>
      obtain ⟨hcause, rfl⟩ := violation?_fault hviolation
      have hfails : Operation.Fails s r'.heap .checkClose cause := .checkClose unbalanced
      obtain ⟨name, slot, hfound⟩ := hfails.declared hcause
      exact ⟨acts.eq_of_declared hfound, rfl⟩
  | takeReturn closed acts fault =>
      obtain ⟨hcause, rfl⟩ := violation?_fault hviolation
      obtain ⟨name, slot, hfound⟩ := fault.declared hcause
      exact ⟨acts.eq_of_declared hfound, rfl⟩

/-! ## §2  Replaying one step more -/

theorem Acts.keepGoing_eq (h : Acts r frame s r₁) : r₁.keepGoing = r.keepGoing := by
  cases h <;> rfl

theorem Does.keepGoing_eq (h : Does r step r') : r'.keepGoing = r.keepGoing := by
  cases h with
  | action acts operands rule => exact acts.keepGoing_eq
  | call absent acts operands => exact acts.keepGoing_eq
  | close acts balanced => exact acts.keepGoing_eq
  | takeReturn closed acts rule => exact acts.keepGoing_eq

theorem Does.ending_replaySteps (h : Does r step r₁) (index : Nat) (report : Report)
    (steps : List (Step L)) :
    (r.replaySteps index report (step :: steps)).ending =
      (r₁.replaySteps (index + 1) { report with stepsExecuted := report.stepsExecuted + 1 }
        steps).ending := by
  obtain ⟨hresult, hstate⟩ := apply_of_does h index
  simp only [Replay.replaySteps, hresult, hstate, Report.afterStep]
  rfl

theorem Stops.ending_replaySteps (h : Stops r step fault r')
    (hviolation : (fault index).violation? = none) (report : Report) (steps : List (Step L)) :
    (r.replaySteps index report (step :: steps)).ending = (.error (fault index), r') := by
  obtain ⟨hresult, hstate⟩ := apply_of_stops h index
  simp only [Replay.replaySteps, hresult, hstate, Report.afterStep, hviolation]
  rfl

theorem Stops.ending_replaySteps_violation (h : Stops r step fault r')
    (hviolation : (fault index).violation? = some v) (report : Report) (steps : List (Step L)) :
    (r.replaySteps index report (step :: steps)).ending =
      if r.keepGoing then
        (r.replaySteps (index + 1) ⟨report.stepsExecuted + 1, report.violations ++ [v]⟩
          steps).ending
      else (.ok ⟨report.stepsExecuted + 1, report.violations ++ [v]⟩, r) := by
  obtain ⟨hresult, hstate⟩ := apply_of_stops h index
  obtain ⟨rfl, -⟩ := h.eq_of_violation hviolation
  simp only [Replay.replaySteps, hresult, hstate, Report.afterStep, hviolation]
  cases r'.keepGoing <;> rfl

/-! ## §3  Steps that succeed -/

/-- `DoesAll r steps r'`: from `r`, all steps succeed one after the other and leave
`r'`. -/
inductive DoesAll : Replay L → List (Step L) → Replay L → Prop
  | nil {r : Replay L} : DoesAll r [] r
  | cons {r r₁ r' : Replay L} {step : Step L} {steps : List (Step L)} (does : Does r step r₁)
      (rest : DoesAll r₁ steps r') : DoesAll r (step :: steps) r'

/-! ## §4  Steps that succeed or end in an illegal flow -/

/-- `Advances r index steps violations r'`: from `r`, the steps are carried out one
after the other, the first of them under number `index`. Each succeeds or ends in
an illegal flow; these are the `violations`. What is left is `r'`. -/
inductive Advances : Replay L → Nat → List (Step L) → List Violation → Replay L → Prop
  | done {r : Replay L} {index : Nat} : Advances r index [] [] r
  | does {r r₁ r' : Replay L} {index : Nat} {step : Step L} {steps : List (Step L)}
      {violations : List Violation} (does : Does r step r₁)
      (rest : Advances r₁ (index + 1) steps violations r') :
      Advances r index (step :: steps) violations r'
  | violates {r r' : Replay L} {index : Nat} {step : Step L} {steps : List (Step L)}
      {fault : Nat → ReplayFault} {v : Violation} {violations : List Violation}
      (stops : Stops r step fault r) (violation : (fault index).violation? = some v)
      (rest : Advances r (index + 1) steps violations r') :
      Advances r index (step :: steps) (v :: violations) r'

/-- **Replaying steps that advance** puts their violations into the report, if the
replay goes on after them. -/
theorem Advances.ending_replaySteps (h : Advances r index done violations r')
    (hgo : r.keepGoing = true ∨ violations = []) (report : Report) (rest : List (Step L)) :
    (r.replaySteps index report (done ++ rest)).ending =
      (r'.replaySteps (index + done.length)
        ⟨report.stepsExecuted + done.length, report.violations ++ violations⟩ rest).ending := by
  induction h generalizing report with
  | done => rw [List.nil_append, List.append_nil, List.length_nil, Nat.add_zero, Nat.add_zero]
  | @does r r₁ r' index step steps violations does later ih =>
      rw [List.cons_append, does.ending_replaySteps, ih (does.keepGoing_eq ▸ hgo)]
      simp only [List.length_cons, Nat.add_assoc, Nat.add_comm 1]
  | @violates r r' index step steps fault v violations stops violation later ih =>
      have hkeep : r.keepGoing = true := hgo.resolve_right (List.cons_ne_nil v violations)
      rw [List.cons_append, stops.ending_replaySteps_violation violation, if_pos hkeep,
        ih (Or.inl hkeep)]
      simp only [List.length_cons, Nat.add_assoc, Nat.add_comm 1, List.append_assoc,
        List.singleton_append]

theorem DoesAll.advances (h : DoesAll r done r') (index : Nat) : Advances r index done [] r' := by
  induction h generalizing index with
  | nil => exact .done
  | cons does rest ih => exact .does does (ih (index + 1))

/-- Steps among which there is no illegal flow succeed. -/
theorem Advances.doesAll_of_clean (h : Advances r index done [] r') : DoesAll r done r' := by
  generalize hnone : ([] : List Violation) = violations at h
  induction h with
  | done => exact .nil
  | does does rest ih => exact .cons does (ih hnone)
  | violates stops violation rest ih => cases hnone

theorem DoesAll.ending_replaySteps (h : DoesAll r done r') (index : Nat) (report : Report)
    (rest : List (Step L)) :
    (r.replaySteps index report (done ++ rest)).ending =
      (r'.replaySteps (index + done.length)
        { report with stepsExecuted := report.stepsExecuted + done.length } rest).ending := by
  rw [(h.advances index).ending_replaySteps (Or.inr rfl), List.append_nil]

/-- A replay that comes to a report has advanced through the steps that it
executed. It has stopped early only at an illegal flow. -/
theorem advances_of_ok {report report' : Report} {final : Replay L}
    (h : (r.replaySteps index report steps).ending = (.ok report', final)) :
    ∃ done rest violations, steps = done ++ rest ∧ Advances r index done violations final ∧
      report' = ⟨report.stepsExecuted + done.length, report.violations ++ violations⟩ ∧
      (rest = [] ∨ r.keepGoing = false ∧ violations ≠ []) := by
  induction steps generalizing r index report with
  | nil =>
      cases h
      refine ⟨[], [], [], rfl, .done, ?_, Or.inl rfl⟩
      rw [List.append_nil, List.length_nil, Nat.add_zero]
  | cons step steps ih =>
      rcases r.does_or_stops step with ⟨r₁, hdoes⟩ | ⟨fault, r₁, hstops⟩
      · rw [hdoes.ending_replaySteps] at h
        obtain ⟨done, rest, violations, rfl, hadvances, hreport, hend⟩ := ih h
        refine ⟨step :: done, rest, violations, rfl, .does hdoes hadvances, ?_, ?_⟩
        · rw [hreport, List.length_cons, Nat.add_right_comm, Nat.add_assoc]
        · rw [← hdoes.keepGoing_eq]
          exact hend
      · cases hviolation : (fault index).violation? with
        | none =>
            rw [hstops.ending_replaySteps hviolation] at h
            cases h
        | some v =>
            obtain ⟨rfl, -⟩ := hstops.eq_of_violation hviolation
            rw [hstops.ending_replaySteps_violation hviolation] at h
            split at h
            · rename_i hkeep
              obtain ⟨done, rest, violations, rfl, hadvances, hreport, hend⟩ := ih h
              refine ⟨step :: done, rest, v :: violations, rfl,
                .violates hstops hviolation hadvances, ?_, ?_⟩
              · rw [hreport, List.length_cons, Nat.add_right_comm, Nat.add_assoc,
                  List.append_assoc, List.singleton_append]
              · rcases hend with hend | ⟨hstop, -⟩
                · exact Or.inl hend
                · rw [hkeep] at hstop
                  cases hstop
            · rename_i hstop
              cases h
              refine ⟨[step], steps, [v], rfl, .violates hstops hviolation .done, rfl, Or.inr ?_⟩
              exact ⟨eq_false_of_ne_true hstop, List.cons_ne_nil v []⟩

/-- A replay that is aborted has advanced as far as the step that stops it. -/
theorem advances_of_error {report : Report} {e : ReplayFault} {final : Replay L}
    (h : (r.replaySteps index report steps).ending = (.error e, final)) :
    ∃ done step rest violations r₁ fault, steps = done ++ step :: rest ∧
      Advances r index done violations r₁ ∧ (r.keepGoing = true ∨ violations = []) ∧
      Stops r₁ step fault final ∧ fault (index + done.length) = e ∧ e.violation? = none := by
  induction steps generalizing r index report with
  | nil => cases h
  | cons step steps ih =>
      rcases r.does_or_stops step with ⟨r₁, hdoes⟩ | ⟨fault, r₁, hstops⟩
      · rw [hdoes.ending_replaySteps] at h
        obtain ⟨done, last, rest, violations, r₂, fault, rfl, hadvances, hgo, hstops, hfault,
          hviolation⟩ := ih h
        refine ⟨step :: done, last, rest, violations, r₂, fault, rfl, .does hdoes hadvances, ?_,
          hstops, ?_, hviolation⟩
        · rw [← hdoes.keepGoing_eq]
          exact hgo
        · rw [List.length_cons, ← hfault, Nat.add_right_comm, Nat.add_assoc]
      · cases hviolation : (fault index).violation? with
        | none =>
            rw [hstops.ending_replaySteps hviolation] at h
            cases h
            exact ⟨[], step, steps, [], r, fault, rfl, .done, Or.inr rfl, hstops, rfl, hviolation⟩
        | some v =>
            obtain ⟨rfl, -⟩ := hstops.eq_of_violation hviolation
            rw [hstops.ending_replaySteps_violation hviolation] at h
            split at h
            · rename_i hkeep
              obtain ⟨done, last, rest, violations, r₂, fault', rfl, hadvances, hgo, hlast, hfault,
                hnone⟩ := ih h
              refine ⟨step :: done, last, rest, v :: violations, r₂, fault', rfl,
                .violates hstops hviolation hadvances, Or.inl hkeep, hlast, ?_, hnone⟩
              rw [List.length_cons, ← hfault, Nat.add_right_comm, Nat.add_assoc]
            · cases h

/-! ## §5  Runs -/

theorem ending_run (r : Replay L) (trace : Trace L) :
    (r.run trace).ending = (r.reset.replaySteps 0 .empty trace.steps).ending := by
  unfold run Outcome.andThen Outcome.ending
  cases (r.reset.replaySteps 0 .empty trace.steps).result <;> rfl

/-- **A run that comes to a report** has advanced through the steps that it
executed. It has stopped early only at an illegal flow. -/
theorem advances_of_run {trace : Trace L} {report : Report}
    (h : (r.run trace).result = .ok report) :
    ∃ done rest, trace.steps = done ++ rest ∧ report.stepsExecuted = done.length ∧
      Advances r.reset 0 done report.violations (r.run trace).state ∧
      (rest = [] ∨ r.keepGoing = false ∧ report.violations ≠ []) := by
  have hrun : (r.reset.replaySteps 0 .empty trace.steps).ending =
      (.ok report, (r.run trace).state) := by
    rw [← ending_run, Outcome.ending, h]
  obtain ⟨done, rest, violations, hsteps, hadvances, rfl, hend⟩ := advances_of_ok hrun
  exact ⟨done, rest, hsteps, Nat.zero_add _, hadvances, hend⟩

/-- **A run without an illegal flow** has had every step succeed. -/
theorem doesAll_of_run {trace : Trace L} {report : Report}
    (h : (r.run trace).result = .ok report) (hclean : report.violations = []) :
    DoesAll r.reset trace.steps (r.run trace).state ∧
      report.stepsExecuted = trace.steps.length := by
  obtain ⟨done, rest, hsteps, hexecuted, hadvances, hend⟩ := advances_of_run h
  obtain rfl : rest = [] := hend.resolve_right fun hstop => hstop.2 hclean
  rw [List.append_nil] at hsteps
  rw [hclean] at hadvances
  rw [hsteps]
  exact ⟨hadvances.doesAll_of_clean, hexecuted⟩

/-- **A run that is aborted** has advanced as far as the step that stops it. -/
theorem advances_of_abort {trace : Trace L} {e : ReplayFault}
    (h : (r.run trace).result = .error e) :
    ∃ done step rest violations r₁ fault, trace.steps = done ++ step :: rest ∧
      Advances r.reset 0 done violations r₁ ∧ (r.keepGoing = true ∨ violations = []) ∧
      Stops r₁ step fault (r.run trace).state ∧ fault done.length = e ∧ e.violation? = none := by
  have hrun : (r.reset.replaySteps 0 .empty trace.steps).ending =
      (.error e, (r.run trace).state) := by
    rw [← ending_run, Outcome.ending, h]
  obtain ⟨done, step, rest, violations, r₁, fault, hsteps, hadvances, hgo, hstops, hfault, hnone⟩ :=
    advances_of_error hrun
  rw [Nat.zero_add] at hfault
  exact ⟨done, step, rest, violations, r₁, fault, hsteps, hadvances, hgo, hstops, hfault, hnone⟩

theorem Advances.ending_run {trace : Trace L} (h : Advances r.reset 0 trace.steps violations r')
    (hgo : r.keepGoing = true ∨ violations = []) :
    (r.run trace).ending = (.ok ⟨trace.steps.length, violations⟩, r') := by
  have hsteps := h.ending_replaySteps hgo .empty []
  rw [List.append_nil, ← Replay.ending_run] at hsteps
  rw [hsteps]
  simp only [Report.empty, Nat.zero_add, List.nil_append]
  rfl

/-- Steps that all succeed are replayed without an illegal flow. -/
theorem DoesAll.ending_run {trace : Trace L} (h : DoesAll r.reset trace.steps r') :
    (r.run trace).ending = (.ok ⟨trace.steps.length, []⟩, r') :=
  (h.advances 0).ending_run (Or.inr rfl)

/-- A step that stops after steps that all succeed aborts the run. -/
theorem DoesAll.ending_run_stops {trace : Trace L} (hsteps : trace.steps = done ++ step :: rest)
    (h : DoesAll r.reset done r₁) (hstops : Stops r₁ step fault r')
    (hnone : (fault done.length).violation? = none) :
    (r.run trace).ending = (.error (fault done.length), r') := by
  rw [Replay.ending_run, hsteps, h.ending_replaySteps]
  rw [← Nat.zero_add done.length] at hnone
  rw [hstops.ending_replaySteps hnone, Nat.zero_add]

/-! ## §6  Runs, step by step -/

theorem Advances.after_eq (h : Advances r index done violations r') :
    r.after index done = r' := by
  induction h with
  | done => rfl
  | @does r r₁ r' index step steps violations does rest ih =>
      show (r.apply index step).state.after (index + 1) steps = r'
      rw [(apply_of_does does index).2]
      exact ih
  | @violates r r' index step steps fault v violations stops violation rest ih =>
      show (r.apply index step).state.after (index + 1) steps = r'
      rw [(apply_of_stops stops index).2]
      exact ih

theorem DoesAll.clean (h : DoesAll r done r') (index : Nat) : r.Clean index done := by
  induction h generalizing index with
  | nil => trivial
  | cons does rest ih =>
      obtain ⟨hresult, hstate⟩ := apply_of_does does index
      refine ⟨hresult, ?_⟩
      rw [hstate]
      exact ih (index + 1)

/-- **A run that neither aborts nor reports a violation has had every step
succeed.** -/
theorem clean_of_run {trace : Trace L} {report : Report}
    (h : (r.run trace).result = .ok report) (hnone : report.violations = []) :
    r.reset.Clean 0 trace.steps :=
  (doesAll_of_run h hnone).1.clean 0

theorem Clean.doesAll (h : r.Clean index steps) : DoesAll r steps (r.after index steps) := by
  induction steps generalizing r index with
  | nil => exact .nil
  | cons step steps ih => exact .cons (does_of_ok h.1) (ih h.2)

/-- **A run comes to a clean report exactly when every step succeeds.** -/
theorem clean_iff_run {trace : Trace L} :
    r.reset.Clean 0 trace.steps ↔
      ∃ report, (r.run trace).result = .ok report ∧ report.isClean = true := by
  constructor
  · intro h
    exact ⟨_, congrArg Prod.fst h.doesAll.ending_run, rfl⟩
  · rintro ⟨report, hresult, hclean⟩
    exact clean_of_run hresult (List.isEmpty_iff.1 hclean)

end Replay

end InfoFlow
