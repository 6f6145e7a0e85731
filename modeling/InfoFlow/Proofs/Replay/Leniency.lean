import InfoFlow.Proofs.Replay.LegalPart
import InfoFlow.Proofs.Session.Image
import InfoFlow.Proofs.Session.Leniency

/-!
# A replay under a more lenient policy

Every frame of a replay follows its policy (`Follows`): a root frame is opened under
it, a frame that is called takes it from its caller. So a step that succeeds under a
strict policy succeeds under a lenient one and leaves the same (`Does.withPolicy`),
and an illegal flow is the same illegal flow (`Stops.withPolicy`). A strict policy only
aborts more replays, and until it does the two replays go the same way
(`run_lenient`).
-/

namespace InfoFlow

open Std (ExtTreeMap)
open Level (bottom)

variable {L : Type} {strict lenient : Policy}

namespace Replay

variable {r r₁ r' : Replay L} {frame : String} {s : Session L} {step : Step L}

/-! ## §1  The policy of a replay -/

/-- The same replay under another policy: the same heap and return levels, and the
same frames with their locals, scopes, arguments and return levels. -/
def withPolicy (r : Replay L) (policy : Policy) : Replay L :=
  { r with policy, frames := r.frames.map fun _ s => s.withPolicy policy }

/-- The replay and all its open frames were opened under this policy. -/
structure Follows (r : Replay L) (policy : Policy) : Prop where
  policy_eq : r.policy = policy
  frames : ∀ (f : String) (s : Session L), r.frames[f]? = some s → s.Follows policy

theorem frames_withPolicy (r : Replay L) (policy : Policy) (f : String) :
    (r.withPolicy policy).frames[f]? = r.frames[f]?.map (·.withPolicy policy) :=
  ExtTreeMap.getElem?_map

theorem frames_withPolicy_of_none (policy : Policy) (absent : r.frames[frame]? = none) :
    (r.withPolicy policy).frames[frame]? = none := by
  rw [frames_withPolicy, absent, Option.map_none]

theorem withPolicy_new (strict lenient : Policy) (keepGoing : Bool) :
    (new strict keepGoing : Replay L).withPolicy lenient = new lenient keepGoing := by
  unfold withPolicy new
  rw [FiniteMap.map_empty]

theorem setSession_withPolicy (r : Replay L) (policy : Policy) (frame : String) (s : Session L)
    (heap : Heap L) :
    ({ r.setSession frame s with heap := heap } : Replay L).withPolicy policy =
      { (r.withPolicy policy).setSession frame (s.withPolicy policy) with heap := heap } := by
  unfold setSession withPolicy
  rw [FiniteMap.map_insert]

theorem openRoot_withPolicy (r : Replay L) (policy : Policy) (frame : String) (s : Session L) :
    (r.openRoot frame s).withPolicy policy =
      (r.withPolicy policy).openRoot frame (s.withPolicy policy) := by
  unfold openRoot withPolicy
  rw [FiniteMap.map_insert]

theorem openFrame_withPolicy (r : Replay L) (policy : Policy) (frame : String) (s : Session L) :
    (r.openFrame frame s).withPolicy policy =
      (r.withPolicy policy).openFrame frame (s.withPolicy policy) := by
  unfold openFrame withPolicy
  rw [FiniteMap.map_insert]

theorem closeFrame_withPolicy (r : Replay L) (policy : Policy) (frame : String)
    (returned : Option L) :
    (r.closeFrame frame returned).withPolicy policy =
      (r.withPolicy policy).closeFrame frame returned := by
  unfold closeFrame withPolicy
  rw [FiniteMap.map_erase]

theorem follows_new (policy : Policy) (keepGoing : Bool) :
    (new policy keepGoing : Replay L).Follows policy where
  policy_eq := rfl
  frames := by
    intro f s hf
    exact absurd (hf.symm.trans ExtTreeMap.getElem?_empty) (Option.some_ne_none s)

theorem Follows.insert (h : r.Follows strict) (hs : s.Follows strict) (frame f : String)
    (other : Session L) (hf : (r.frames.insert frame s)[f]? = some other) :
    other.Follows strict := by
  rw [ExtTreeMap.getElem?_insert] at hf
  split at hf
  · cases hf
    exact hs
  · exact h.frames f other hf

theorem Follows.setSession (h : r.Follows strict) (hs : s.Follows strict) (frame : String)
    (heap : Heap L) : ({ r.setSession frame s with heap := heap } : Replay L).Follows strict :=
  ⟨h.policy_eq, h.insert hs frame⟩

theorem Follows.openRoot (h : r.Follows strict) (hs : s.Follows strict) (frame : String) :
    (r.openRoot frame s).Follows strict :=
  ⟨h.policy_eq, h.insert hs frame⟩

theorem Follows.openFrame (h : r.Follows strict) (hs : s.Follows strict) (frame : String) :
    (r.openFrame frame s).Follows strict :=
  ⟨h.policy_eq, h.insert hs frame⟩

theorem Follows.closeFrame (h : r.Follows strict) (frame : String) (returned : Option L) :
    (r.closeFrame frame returned).Follows strict := by
  refine ⟨h.policy_eq, fun f other hf => ?_⟩
  rw [frames_closeFrame] at hf
  split at hf
  · cases hf
  · exact h.frames f other hf

variable [Level L] {steps done : List (Step L)} {fault : Nat → ReplayFault} {index : Nat}
  {violations : List Violation} {v : Violation}

theorem Follows.session (h : r.Follows strict) (hacts : Acts r frame s r₁) : s.Follows strict := by
  cases hacts with
  | isOpen found => exact h.frames frame s found
  | opens absent fresh =>
      rw [h.policy_eq]
      exact ⟨rfl, rfl⟩

theorem Follows.acts (h : r.Follows strict) (hacts : Acts r frame s r₁) : r₁.Follows strict := by
  have hs := h.session hacts
  cases hacts with
  | isOpen found => exact h
  | opens absent fresh => exact h.openRoot hs frame

/-- A step leaves a replay and its frames under their policy. -/
theorem Follows.does (h : r.Follows strict) (hdoes : Does r step r') : r'.Follows strict := by
  cases hdoes with
  | action acts operands rule =>
      exact (h.acts acts).setSession (rule.follows (h.session acts)) _ _
  | @call frame callee arguments s r₁ levels absent acts operands =>
      have hcalled : (s.call callee levels).Follows strict := by
        obtain ⟨hpolicy, -⟩ := h.session acts
        unfold Session.call
        rw [hpolicy]
        exact ⟨rfl, rfl⟩
      exact (h.acts acts).openFrame hcalled callee
  | close acts balanced => exact (h.acts acts).closeFrame _ _
  | takeReturn closed acts rule =>
      exact (h.acts acts).setSession (rule.follows (h.session acts)) _ _

/-! ## §2  Steps -/

theorem Acts.withPolicy (h : Acts r frame s r₁) (policy : Policy) :
    Acts (r.withPolicy policy) frame (s.withPolicy policy) (r₁.withPolicy policy) := by
  cases h with
  | isOpen found =>
      refine .isOpen ?_
      rw [frames_withPolicy, found, Option.map_some]
  | opens absent fresh =>
      rw [openRoot_withPolicy]
      exact .opens (frames_withPolicy_of_none policy absent) fresh

/-- **A step that succeeds under a strict policy succeeds under a lenient one** and
leaves the same. -/
theorem Does.withPolicy (h : Does r step r') (hr : r.Follows strict)
    (hp : strict.AtLeastAsStrict lenient) :
    Does (r.withPolicy lenient) step (r'.withPolicy lenient) := by
  cases h with
  | @action frame action s s' r₁ level reply heap' acts operands rule =>
      rw [setSession_withPolicy]
      refine .action (acts.withPolicy lenient) ?_ (rule.withPolicy (hr.session acts) hp)
      exact (s.joinOperands_withPolicy lenient _ _ _).trans operands
  | @call frame callee arguments s r₁ levels absent acts operands =>
      rw [openFrame_withPolicy]
      refine .call (frames_withPolicy_of_none lenient absent) (acts.withPolicy lenient) ?_
      exact (s.argumentLevels_withPolicy lenient _ _).trans operands
  | @close frame s r₁ acts balanced =>
      have hclose := Session.checkClose_withPolicy (hr.session acts) hp balanced
      have hdoes := Does.close (acts.withPolicy lenient) hclose
      rw [closeFrame_withPolicy]
      exact hdoes
  | @takeReturn frame callee name returned s s' r₁ reply heap' closed acts rule =>
      have hclosed : (r.withPolicy lenient).returned[callee]? = some returned := closed
      rw [setSession_withPolicy]
      exact .takeReturn hclosed (acts.withPolicy lenient) (rule.withPolicy (hr.session acts) hp)

/-- **An illegal flow is one under any policy.** -/
theorem Stops.withPolicy (h : Stops r step fault r')
    (hviolation : (fault index).violation? = some v) (policy : Policy) :
    Stops (r.withPolicy policy) step fault (r'.withPolicy policy) := by
  cases h with
  | calleeOpen found => cases hviolation
  | notReturned absent => cases hviolation
  | closed ready absent opened => cases hviolation
  | unread acts unread =>
      obtain ⟨hcause, -⟩ := violation?_fault hviolation
      rw [Session.not_violation_of_joinOperands unread] at hcause
      cases hcause
  | @action frame action s _ level cause acts operands fault =>
      obtain ⟨hcause, -⟩ := violation?_fault hviolation
      refine .action (acts.withPolicy policy) ?_ (fault.withPolicy hcause policy)
      exact (s.joinOperands_withPolicy policy _ _ _).trans operands
  | call absent acts unread =>
      obtain ⟨hcause, -⟩ := violation?_fault hviolation
      rw [Session.not_violation_of_argumentLevels unread] at hcause
      cases hcause
  | close acts unbalanced =>
      obtain ⟨hcause, -⟩ := violation?_fault hviolation
      rw [Operation.not_violation_of_checkClose unbalanced] at hcause
      cases hcause
  | @takeReturn frame callee name returned s _ cause closed acts fault =>
      obtain ⟨hcause, -⟩ := violation?_fault hviolation
      have hclosed : (r.withPolicy policy).returned[callee]? = some returned := closed
      exact .takeReturn hclosed (acts.withPolicy policy) (fault.withPolicy hcause policy)

/-! ## §3  Runs -/

theorem Advances.withPolicy (h : Advances r index steps violations r') (hr : r.Follows strict)
    (hp : strict.AtLeastAsStrict lenient) :
    Advances (r.withPolicy lenient) index steps violations (r'.withPolicy lenient) := by
  induction h with
  | done => exact .done
  | does does rest ih => exact .does (does.withPolicy hr hp) (ih (hr.does does))
  | violates stops violation rest ih =>
      exact .violates (stops.withPolicy violation lenient) violation (ih hr)

/-- Steps that come to a report under a strict policy come to the same report, in the
same state, under a lenient one. -/
theorem ending_replaySteps_withPolicy {report report' : Report} {final : Replay L}
    (hr : r.Follows strict) (hp : strict.AtLeastAsStrict lenient)
    (h : (r.replaySteps index report steps).ending = (.ok report', final)) :
    ((r.withPolicy lenient).replaySteps index report steps).ending =
      (.ok report', final.withPolicy lenient) := by
  induction steps generalizing r index report with
  | nil =>
      cases h
      rfl
  | cons step steps ih =>
      rcases r.does_or_stops step with ⟨r₁, hdoes⟩ | ⟨fault, r₁, hstops⟩
      · -- both replays do the step and go on with the others
        rw [hdoes.ending_replaySteps] at h
        rw [(hdoes.withPolicy hr hp).ending_replaySteps]
        exact ih (hr.does hdoes) h
      · cases hviolation : (fault index).violation? with
        | none =>
            rw [hstops.ending_replaySteps hviolation] at h
            cases h
        | some v =>
            -- both put the illegal flow down, and go on or stop there
            have hkeep : (r.withPolicy lenient).keepGoing = r.keepGoing := rfl
            rw [hstops.ending_replaySteps_violation hviolation] at h
            rw [(hstops.withPolicy hviolation lenient).ending_replaySteps_violation hviolation,
              hkeep]
            split
            · rename_i hgo
              rw [if_pos hgo] at h
              exact ih hr h
            · rename_i hstop
              rw [if_neg hstop] at h
              cases h
              rfl

/-- Steps are not aborted before the first of them. -/
theorem le_step_of_error {report : Report} {e : ReplayFault} {final : Replay L}
    (h : (r.replaySteps index report steps).ending = (.error e, final)) : index ≤ e.step := by
  obtain ⟨done, step, rest, violations, r₁, fault, -, -, -, hstops, rfl, -⟩ := advances_of_error h
  rw [hstops.step_eq]
  exact Nat.le_add_right index done.length

theorem ending_run_withPolicy {report : Report} {keepGoing : Bool} {trace : Trace L}
    (hp : strict.AtLeastAsStrict lenient)
    (h : ((new strict keepGoing).run trace).result = .ok report) :
    ((new lenient keepGoing).run trace).ending =
      (.ok report, ((new strict keepGoing).run trace).state.withPolicy lenient) := by
  have hstrict : ((new strict keepGoing).reset.replaySteps 0 .empty trace.steps).ending =
      (.ok report, ((new strict keepGoing).run trace).state) := by
    rw [← ending_run, Outcome.ending, h]
  have hreset : (new strict keepGoing).reset.withPolicy lenient =
      (new lenient keepGoing : Replay L).reset := withPolicy_new strict lenient keepGoing
  rw [ending_run, ← hreset]
  exact ending_replaySteps_withPolicy (follows_new strict keepGoing) hp hstrict

/-- Where a run under a strict policy advances, one under a lenient policy is not
aborted. -/
theorem Advances.le_step_of_abort {keepGoing : Bool} {trace : Trace L} {rest : List (Step L)}
    {e : ReplayFault} (h : Advances (new strict keepGoing).reset 0 done violations r')
    (hgo : keepGoing = true ∨ violations = []) (hp : strict.AtLeastAsStrict lenient)
    (hsteps : trace.steps = done ++ rest)
    (habort : ((new lenient keepGoing).run trace).result = .error e) : done.length ≤ e.step := by
  have hreset : (new strict keepGoing).reset.withPolicy lenient =
      (new lenient keepGoing : Replay L).reset := withPolicy_new strict lenient keepGoing
  have hlenient := h.withPolicy (follows_new strict keepGoing) hp
  rw [hreset] at hlenient
  have hending : ((new lenient keepGoing).reset.replaySteps 0 .empty trace.steps).ending =
      (.error e, ((new lenient keepGoing).run trace).state) := by
    rw [← Replay.ending_run, Outcome.ending, habort]
  rw [hsteps, hlenient.ending_replaySteps hgo] at hending
  rw [← Nat.zero_add done.length]
  exact le_step_of_error hending

/-- **A stricter policy only aborts more replays.** When a replay under a strict policy
comes to a report, the replay under a more lenient one comes to the same report and
leaves the same heap, frames and return levels. When the strict replay is aborted at
some step, the lenient one is not aborted before; up to this step the two come to the
same report, of as many steps, and leave the same. -/
theorem run_lenient (hp : strict.AtLeastAsStrict lenient) (keepGoing : Bool) (trace : Trace L) :
    (∀ report, ((new strict keepGoing).run trace).result = .ok report →
      ((new lenient keepGoing).run trace).result = .ok report ∧
        ((new lenient keepGoing).run trace).state =
          ((new strict keepGoing).run trace).state.withPolicy lenient) ∧
    ∀ e, ((new strict keepGoing).run trace).result = .error e →
      (∀ e', ((new lenient keepGoing).run trace).result = .error e' → e.step ≤ e'.step) ∧
        ∃ report, report.stepsExecuted = e.step ∧
          ((new strict keepGoing).run (trace.take e.step)).result = .ok report ∧
          ((new lenient keepGoing).run (trace.take e.step)).result = .ok report ∧
          ((new lenient keepGoing).run (trace.take e.step)).state =
            ((new strict keepGoing).run (trace.take e.step)).state.withPolicy lenient := by
  constructor
  · intro report hresult
    have hlenient := ending_run_withPolicy hp hresult
    exact ⟨congrArg Prod.fst hlenient, congrArg Prod.snd hlenient⟩
  · intro e hresult
    obtain ⟨done, step, rest, violations, r₁, fault, hsteps, hadvances, hgo, hstops, hfault, -⟩ :=
      advances_of_abort hresult
    have hstep : e.step = done.length := by
      rw [← hfault, hstops.step_eq]
    rw [hstep]
    constructor
    · intro e' habort
      exact hadvances.le_step_of_abort hgo hp hsteps habort
    · have htake : (trace.take done.length).steps = done := by
        rw [Trace.take, hsteps, List.take_left]
      rw [← htake] at hadvances
      have hbefore := congrArg Prod.fst (hadvances.ending_run hgo)
      have hlenient := ending_run_withPolicy hp hbefore
      refine ⟨_, ?_, hbefore, congrArg Prod.fst hlenient, congrArg Prod.snd hlenient⟩
      rw [htake]

section Witness

/-- One scope at most, and every slot registered by hand. -/
def oneScope : Policy := { autoRegister := false, maxDepth := some 1 }

/-- Two scopes at most, which need not be closed. -/
def twoScopes : Policy := { maxDepth := some 2, balancedClose := false }

theorem oneScope_atLeastAsStrict : oneScope.AtLeastAsStrict twoScopes where
  autoRegister := fun _ => rfl
  balancedClose := fun _ => rfl
  maxDepth := by
    rintro limit ⟨⟩
    exact ⟨1, rfl, by decide⟩

/-- A frame is called in a branch, writes a registered field and leaks a secret; then
it enters two branches and closes inside them. -/
def calleeInBranches : Trace TwoLevel where
  description := ""
  steps :=
    [⟨"main", .action (.trackField ⟨1⟩ "pin")⟩,
      ⟨"main", .action (.enter ⟨"outer"⟩ [.literal .low])⟩, ⟨"main", .call "f" [.literal .high]⟩,
      ⟨"f", .action (.bindArgument 0 "x")⟩,
      ⟨"f", .action (.writeField ⟨1⟩ "pin" [.local "x"])⟩, ⟨"f", .action (.checkSink "x" .low)⟩,
      ⟨"f", .action (.enter ⟨"a"⟩ [])⟩, ⟨"f", .action (.enter ⟨"b"⟩ [])⟩, ⟨"f", .close⟩]

theorem run_lenient_calleeInBranches :
    oneScope.AtLeastAsStrict twoScopes ∧
      ((new oneScope true).run calleeInBranches).result = .error (.fault 7 "f" (.tooDeep 1)) ∧
      ((new twoScopes true).run calleeInBranches).result.isOk = true ∧
      ∃ report, report.stepsExecuted = 7 ∧
        ((new oneScope true).run (calleeInBranches.take 7)).result = .ok report ∧
        ((new twoScopes true).run (calleeInBranches.take 7)).result = .ok report := by
  have habort : ((new oneScope true).run calleeInBranches).result =
      .error (.fault 7 "f" (.tooDeep 1)) := by rfl
  obtain ⟨-, report, hexecuted, hstrict, hlenient, -⟩ :=
    (run_lenient oneScope_atLeastAsStrict true calleeInBranches).2 _ habort
  exact ⟨oneScope_atLeastAsStrict, habort, by rfl, report, hexecuted, hstrict, hlenient⟩

end Witness

end Replay

end InfoFlow
