import InfoFlow.Level.Chain
import InfoFlow.Proofs.Replay.Progress

/-!
# The legal part of a trace

A replay that goes on after illegal flows leaves what it would have left without
the steps that ended in one. The *legal part* of a trace is what remains of it
when the steps are taken out that a report lists as illegal flows. Replaying the
legal part comes to the same end as replaying the trace, in the same state, and
no step of it is an illegal flow (`run_legalPart`).
-/

namespace InfoFlow

variable {L : Type}

/-! ## §1  Taking steps out of a trace -/

/-- Steps with their numbers, the first of which is `index`, but for those with
one of the `numbers`. -/
def stepsExcept (numbers : List Nat) (index : Nat) (steps : List (Step L)) :
    List (Step L × Nat) :=
  (steps.zipIdx index).filter fun step => step.2 ∉ numbers

theorem stepsExcept_cons_of_mem {numbers : List Nat} {index : Nat} (h : index ∈ numbers)
    (step : Step L) (steps : List (Step L)) :
    stepsExcept numbers index (step :: steps) = stepsExcept numbers (index + 1) steps := by
  simp [stepsExcept, h]

theorem stepsExcept_cons_of_not_mem {numbers : List Nat} {index : Nat} (h : index ∉ numbers)
    (step : Step L) (steps : List (Step L)) :
    stepsExcept numbers index (step :: steps) =
      (step, index) :: stepsExcept numbers (index + 1) steps := by
  simp [stepsExcept, h]

theorem stepsExcept_append (numbers : List Nat) (index : Nat) (done rest : List (Step L)) :
    stepsExcept numbers index (done ++ rest) =
      stepsExcept numbers index done ++ stepsExcept numbers (index + done.length) rest := by
  unfold stepsExcept
  rw [List.zipIdx_append, List.filter_append]

namespace Report

/-- The steps that a report does not list as illegal flows, with their numbers. -/
def legal (report : Report) (steps : List (Step L)) : List (Step L × Nat) :=
  stepsExcept (report.violations.map (·.step)) 0 steps

/-- A trace without the steps that a report lists as illegal flows. -/
def legalPart (report : Report) (trace : Trace L) : Trace L :=
  { trace with steps := (report.legal trace.steps).map Prod.fst }

end Report

namespace Replay

variable [Level L] {r r' : Replay L} {index : Nat} {steps : List (Step L)}
  {violations : List Violation}

theorem Advances.bounds (h : Advances r index steps violations r') :
    ∀ v ∈ violations, index ≤ v.step ∧ v.step < index + steps.length := by
  induction h with
  | done =>
      intro v hv
      cases hv
  | does does rest ih =>
      intro v hv
      obtain ⟨hlow, hhigh⟩ := ih v hv
      rw [List.length_cons]
      omega
  | violates stops violation rest ih =>
      intro v hv
      rw [List.length_cons]
      rcases List.mem_cons.1 hv with rfl | hv
      · obtain ⟨-, hstep⟩ := stops.eq_of_violation violation
        omega
      · obtain ⟨hlow, hhigh⟩ := ih v hv
        omega

/-- **The steps that are not illegal flows succeed without the others**, and leave
the same. -/
theorem Advances.doesAll (h : Advances r index steps violations r') {numbers : List Nat}
    (hnumbers : ∀ i, index ≤ i → (i ∈ numbers ↔ i ∈ violations.map (·.step))) :
    DoesAll r ((stepsExcept numbers index steps).map Prod.fst) r' ∧
      (stepsExcept numbers index steps).length + violations.length = steps.length := by
  -- `numbers` are those of the whole run, of which `steps` are what is left
  induction h with
  | done => exact ⟨.nil, rfl⟩
  | @does r r₁ r' index step steps violations does rest ih =>
      have hlegal : index ∉ numbers := by
        intro hmem
        obtain ⟨v, hv, hstep⟩ := List.mem_map.1 ((hnumbers index (Nat.le_refl index)).1 hmem)
        have hlow := (rest.bounds v hv).1
        omega
      obtain ⟨hdoes, hlength⟩ := ih fun i hi => hnumbers i (Nat.le_of_succ_le hi)
      rw [stepsExcept_cons_of_not_mem hlegal]
      refine ⟨.cons does hdoes, ?_⟩
      rw [List.length_cons, List.length_cons]
      omega
  | @violates r r' index step steps fault v violations stops violation rest ih =>
      obtain ⟨-, hstep⟩ := stops.eq_of_violation violation
      have hlisted : index ∈ numbers :=
        (hnumbers index (Nat.le_refl index)).2 (List.mem_map.2 ⟨v, List.mem_cons_self, hstep⟩)
      have hrest : ∀ i, index + 1 ≤ i → (i ∈ numbers ↔ i ∈ violations.map (·.step)) := by
        intro i hi
        rw [hnumbers i (Nat.le_of_succ_le hi), List.map_cons, List.mem_cons, hstep]
        constructor
        · rintro (rfl | hmem)
          · omega
          · exact hmem
        · exact Or.inr
      obtain ⟨hdoes, hlength⟩ := ih hrest
      rw [stepsExcept_cons_of_mem hlisted]
      refine ⟨hdoes, ?_⟩
      rw [List.length_cons, List.length_cons]
      omega

/-! ## §2  Going on or stopping at an illegal flow -/

variable {frame : String} {s : Session L} {r₁ : Replay L} {step : Step L}
  {fault : Nat → ReplayFault}

/-- The same replay, which goes on after illegal flows or stops at the first one. -/
def withKeepGoing (r : Replay L) (keepGoing : Bool) : Replay L := { r with keepGoing }

theorem Acts.withKeepGoing (h : Acts r frame s r₁) (keepGoing : Bool) :
    Acts (r.withKeepGoing keepGoing) frame s (r₁.withKeepGoing keepGoing) := by
  cases h with
  | isOpen found => exact .isOpen found
  | opens absent fresh => exact .opens absent fresh

theorem Does.withKeepGoing (h : Does r step r') (keepGoing : Bool) :
    Does (r.withKeepGoing keepGoing) step (r'.withKeepGoing keepGoing) := by
  cases h with
  | action acts operands rule => exact .action (acts.withKeepGoing keepGoing) operands rule
  | @call frame callee arguments s r₁ levels absent acts operands =>
      have habsent : (r.withKeepGoing keepGoing).frames[callee]? = none := absent
      exact .call habsent (acts.withKeepGoing keepGoing) operands
  | close acts balanced => exact .close (acts.withKeepGoing keepGoing) balanced
  | @takeReturn frame callee name returned s s' r₁ reply heap' closed acts rule =>
      have hclosed : (r.withKeepGoing keepGoing).returned[callee]? = some returned := closed
      exact .takeReturn hclosed (acts.withKeepGoing keepGoing) rule

theorem Stops.withKeepGoing (h : Stops r step fault r') (keepGoing : Bool) :
    Stops (r.withKeepGoing keepGoing) step fault (r'.withKeepGoing keepGoing) := by
  cases h with
  | calleeOpen found => exact .calleeOpen found
  | notReturned absent => exact .notReturned absent
  | @closed frame op ready absent opened =>
      refine .closed ?_ absent opened
      cases op <;> exact ready
  | unread acts unread => exact .unread (acts.withKeepGoing keepGoing) unread
  | action acts operands fault => exact .action (acts.withKeepGoing keepGoing) operands fault
  | @call frame callee arguments s _ cause absent acts unread =>
      have habsent : (r.withKeepGoing keepGoing).frames[callee]? = none := absent
      exact .call habsent (acts.withKeepGoing keepGoing) unread
  | close acts unbalanced => exact .close (acts.withKeepGoing keepGoing) unbalanced
  | @takeReturn frame callee name returned s _ cause closed acts fault =>
      have hclosed : (r.withKeepGoing keepGoing).returned[callee]? = some returned := closed
      exact .takeReturn hclosed (acts.withKeepGoing keepGoing) fault

theorem DoesAll.withKeepGoing (h : DoesAll r steps r') (keepGoing : Bool) :
    DoesAll (r.withKeepGoing keepGoing) steps (r'.withKeepGoing keepGoing) := by
  induction h with
  | nil => exact .nil
  | cons does rest ih => exact .cons (does.withKeepGoing keepGoing) ih

end Replay

/-! ## §3  The same fault at another step -/

namespace ReplayFault

/-- The number of the step that failed. -/
def step : ReplayFault → Nat
  | alreadyOpen step _ => step
  | notReturned step _ => step
  | alreadyClosed step _ => step
  | fault step _ _ => step

/-- The same fault at step `n`. -/
def atStep (n : Nat) : ReplayFault → ReplayFault
  | alreadyOpen _ frame => alreadyOpen n frame
  | notReturned _ frame => notReturned n frame
  | alreadyClosed _ frame => alreadyClosed n frame
  | fault _ frame cause => fault n frame cause

theorem violation?_atStep {e : ReplayFault} (h : e.violation? = none) (n : Nat) :
    (e.atStep n).violation? = none := by
  cases e with
  | fault step frame cause =>
      cases hviolation : cause.isViolation with
      | true => simp [violation?, hviolation] at h
      | false => simp [violation?, atStep, hviolation]
  | _ => rfl

end ReplayFault

namespace Replay

variable [Level L] {r r' : Replay L} {step : Step L} {fault : Nat → ReplayFault}

theorem Stops.step_eq (h : Stops r step fault r') (n : Nat) : (fault n).step = n := by
  cases h <;> rfl

theorem Stops.atStep_eq (h : Stops r step fault r') (m n : Nat) :
    (fault m).atStep n = fault n := by
  cases h <;> rfl

/-! ## §4  Replaying the legal part -/

variable {policy : Policy} {trace : Trace L}

theorem run_legalPart_of_ok {report : Report}
    (h : ((new policy true).run trace).result = .ok report) (keepGoing : Bool) :
    ((new policy keepGoing).run (report.legalPart trace)).ending =
      (.ok ⟨trace.steps.length - report.violations.length, []⟩,
        ((new policy true).run trace).state.withKeepGoing keepGoing) := by
  obtain ⟨done, rest, hsteps, -, hadvances, hend⟩ := advances_of_run h
  obtain rfl : rest = [] := hend.resolve_right fun hstop => Bool.noConfusion hstop.1
  rw [List.append_nil] at hsteps
  subst hsteps
  obtain ⟨hdoes, hlength⟩ := hadvances.doesAll fun i _ => Iff.rfl
  have hrun : ((new policy keepGoing).run (report.legalPart trace)).ending =
      (.ok ⟨(report.legalPart trace).steps.length, []⟩,
        ((new policy true).run trace).state.withKeepGoing keepGoing) :=
    DoesAll.ending_run (hdoes.withKeepGoing keepGoing)
  have hcount : (report.legalPart trace).steps.length =
      trace.steps.length - report.violations.length := by
    rw [Report.legalPart, List.length_map, Report.legal]
    omega
  rw [hrun, hcount]

/-- When a replay is aborted, the legal part of the trace consists of what is legal
before the fault, the step that failed, and what is legal after it. -/
theorem run_legalPart_of_abort {e : ReplayFault}
    (h : ((new policy true).run trace).result = .error e) (keepGoing : Bool) :
    ∃ report step earlier later, ((new policy true).run (trace.take e.step)).result = .ok report ∧
      (report.legalPart trace).steps = earlier ++ step :: later ∧
      earlier.length = e.step - report.violations.length ∧ trace.steps[e.step]? = some step ∧
      ((new policy keepGoing).run { trace with steps := earlier }).result =
        .ok ⟨earlier.length, []⟩ ∧
      ((new policy keepGoing).run (report.legalPart trace)).ending =
        (.error (e.atStep earlier.length),
          ((new policy true).run trace).state.withKeepGoing keepGoing) := by
  obtain ⟨done, last, rest, violations, r₁, fault, hsteps, hadvances, -, hstops, hfault, hnone⟩ :=
    advances_of_abort h
  have hstep : e.step = done.length := by
    rw [← hfault, hstops.step_eq]
  have hbefore : ((new policy true).run (trace.take e.step)).ending =
      (.ok ⟨done.length, violations⟩, r₁) := by
    have htake : (trace.take e.step).steps = done := by
      rw [Trace.take, hsteps, hstep, List.take_left]
    rw [← htake] at hadvances
    rw [hadvances.ending_run (Or.inl rfl), htake]
  obtain ⟨hdoes, hlength⟩ := hadvances.doesAll fun i _ => Iff.rfl
  -- the step that failed stays in the legal part: the illegal flows all come before it
  have hlegal : done.length ∉ violations.map (·.step) := by
    intro hmem
    obtain ⟨v, hv, hnumber⟩ := List.mem_map.1 hmem
    have hhigh := (hadvances.bounds v hv).2
    omega
  have hsteps' : (Report.legalPart ⟨done.length, violations⟩ trace).steps =
      (stepsExcept (violations.map (·.step)) 0 done).map Prod.fst ++
        last :: (stepsExcept (violations.map (·.step)) (done.length + 1) rest).map Prod.fst := by
    rw [Report.legalPart, Report.legal, hsteps, stepsExcept_append, Nat.zero_add,
      stepsExcept_cons_of_not_mem hlegal, List.map_append, List.map_cons]
  have hdoes' : DoesAll (new policy keepGoing).reset
      ((stepsExcept (violations.map (·.step)) 0 done).map Prod.fst) (r₁.withKeepGoing keepGoing) :=
    hdoes.withKeepGoing keepGoing
  have habort := DoesAll.ending_run_stops hsteps' hdoes' (hstops.withKeepGoing keepGoing) (by
      rw [← hstops.atStep_eq done.length, hfault]
      exact ReplayFault.violation?_atStep hnone _)
  rw [← hstops.atStep_eq done.length, hfault] at habort
  refine ⟨⟨done.length, violations⟩, last, _, _, congrArg Prod.fst hbefore, hsteps', ?_, ?_, ?_,
    habort⟩
  · show _ = e.step - violations.length
    rw [List.length_map, hstep]
    omega
  · rw [hsteps, hstep, List.getElem?_append_right (Nat.le_refl _), Nat.sub_self]
    rfl
  · exact congrArg Prod.fst (DoesAll.ending_run hdoes')

/-- **Steps that end in an illegal flow leave no trace.** Let a trace be replayed
by a replay that goes on after illegal flows. If that comes to a report, the legal
part of the trace is replayed without an illegal flow and leaves the same state. If
it is aborted, the steps before the fault come to a report, and the legal part of
the trace by that report is replayed without an illegal flow up to the step that
failed; there it is aborted by the same fault, in the same state. It makes no
difference whether the second replay would go on after an illegal flow. -/
theorem run_legalPart (policy : Policy) (keepGoing : Bool) (trace : Trace L) :
    match ((new policy true).run trace).result with
    | .ok report =>
        ((new policy keepGoing).run (report.legalPart trace)).result =
            .ok ⟨trace.steps.length - report.violations.length, []⟩ ∧
          ((new policy keepGoing).run (report.legalPart trace)).state =
            ((new policy true).run trace).state.withKeepGoing keepGoing
    | .error e =>
        ∃ report, ((new policy true).run (trace.take e.step)).result = .ok report ∧
          let n := e.step - report.violations.length
          (report.legalPart trace).steps[n]? = trace.steps[e.step]? ∧
          ((new policy keepGoing).run ((report.legalPart trace).take n)).result = .ok ⟨n, []⟩ ∧
          ((new policy keepGoing).run (report.legalPart trace)).result = .error (e.atStep n) ∧
          ((new policy keepGoing).run (report.legalPart trace)).state =
            ((new policy true).run trace).state.withKeepGoing keepGoing := by
  cases hresult : ((new policy true).run trace).result with
  | ok report =>
      have hrun := run_legalPart_of_ok hresult keepGoing
      exact ⟨congrArg Prod.fst hrun, congrArg Prod.snd hrun⟩
  | error e =>
      obtain ⟨report, step, earlier, later, hbefore, hsteps, hn, hstep, hclean, hrun⟩ :=
        run_legalPart_of_abort hresult keepGoing
      refine ⟨report, hbefore, ?_⟩
      rw [← hn]
      refine ⟨?_, ?_, congrArg Prod.fst hrun, congrArg Prod.snd hrun⟩
      · rw [hsteps, hstep, List.getElem?_append_right (Nat.le_refl _), Nat.sub_self]
        rfl
      · rw [Trace.take, hsteps, List.take_left]
        exact hclean

/-- A secret is kept from a public sink; two steps later a local is assigned that
was never declared. -/
def leakThenMisuse : Trace TwoLevel where
  description := ""
  steps :=
    [⟨"main", .action (.declare "x")⟩, ⟨"main", .action (.label "x" .high)⟩,
      ⟨"main", .action (.checkSink "x" .low)⟩, ⟨"main", .action (.declare "y")⟩,
      ⟨"main", .action (.write "z" [.local "x"])⟩, ⟨"main", .action (.declare "z")⟩]

theorem run_legalPart_leakThenMisuse :
    ∃ report, ((new {} true).run (leakThenMisuse.take 4)).result = .ok report ∧
      report.violations.map (·.step) = [2] ∧
      (report.legalPart leakThenMisuse).steps[3]? =
        some ⟨"main", .action (.write "z" [.local "x"])⟩ ∧
      ((new {} false).run (report.legalPart leakThenMisuse)).result =
        .error (.fault 3 "main" (.unregistered (.local "z"))) := by
  have habort : ((new {} true).run leakThenMisuse).result =
      .error (.fault 4 "main" (.unregistered (.local "z"))) := by rfl
  have hbefore : ((new {} true).run (leakThenMisuse.take 4)).result =
      .ok ⟨4, [⟨2, "main", "Illegal flow to local 'x': level HIGH exceeds sink bound LOW"⟩]⟩ := by
    rfl
  have hlegal := run_legalPart {} false leakThenMisuse
  rw [habort] at hlegal
  obtain ⟨report, hreport, hstep, -, hlegal, -⟩ := hlegal
  obtain rfl := Except.ok.inj (hbefore.symm.trans hreport)
  exact ⟨_, hbefore, rfl, hstep, hlegal⟩

end Replay

end InfoFlow
