import InfoFlow.Level.CategorySet
import InfoFlow.Proofs.Replay.Progress
import InfoFlow.Proofs.Session.Image

/-!
# A replay under a map of levels

A trace can be taken from one set of levels to another, step by step, and so can
the state of a replay. Under a homomorphism of levels the image of a step that
succeeds succeeds on the image of the replay (`Does.image`). So a replay without
illegal flows has an image without illegal flows; in particular, every observer may
replay the trace over what he tells apart (`run_view`). Under an embedding the
steps that fail fail alike (`Stops.image`), and the two replays come to the same
end (`LevelEmbedding.ending_run`).
-/

namespace InfoFlow

open Std (ExtTreeMap)
open Level (bottom top join)

variable {L M : Type}

/-! ## §1  Images of traces -/

def Action.map (f : L → M) : Action L → Action M
  | declare name => declare name
  | write name operands => write name (operands.map (Operand.map f))
  | writeField object field operands => writeField object field (operands.map (Operand.map f))
  | writeElement array index operands => writeElement array index (operands.map (Operand.map f))
  | enter tag condition => enter tag (condition.map (Operand.map f))
  | exit tag => exit tag
  | checkBelowTop name => checkBelowTop name
  | checkSink name sink => checkSink name (f sink)
  | trackObject object => trackObject object
  | trackField object field => trackField object field
  | trackArray array length => trackArray array length
  | label name level => label name (f level)
  | labelField object field level => labelField object field (f level)
  | bindArgument position name => bindArgument position name
  | returnLocal name => returnLocal name
  | returnConstant => returnConstant

def TraceOp.map (f : L → M) : TraceOp L → TraceOp M
  | action act => action (act.map f)
  | call callee arguments => call callee (arguments.map (Operand.map f))
  | close => close
  | takeReturn callee name => takeReturn callee name

def Step.map (f : L → M) (step : Step L) : Step M := ⟨step.frame, step.op.map f⟩

/-- A trace with every level replaced by its image. -/
def Trace.map (f : L → M) (trace : Trace L) : Trace M :=
  ⟨trace.description, trace.steps.map (Step.map f)⟩

theorem Action.operands_map (action : Action L) (f : L → M) :
    (action.map f).operands = action.operands.map (Operand.map f) := by
  cases action <;> rfl

theorem Action.operation_map (action : Action L) (f : L → M) (level : L) :
    (action.map f).operation (f level) = (action.operation level).map f := by
  cases action <;> rfl

namespace Replay

/-! ## §2  Images of replays -/

/-- A replay with every level replaced by its image. -/
def map (f : L → M) (r : Replay L) : Replay M where
  policy := r.policy
  keepGoing := r.keepGoing
  heap := r.heap.map f
  frames := r.frames.map fun _ s => s.map f
  opened := r.opened
  returned := r.returned.map fun _ returned => returned.map f

variable {f : L → M} {r r₁ r' : Replay L} {frame : String} {s : Session L} {step : Step L}

theorem frames_map (f : L → M) (r : Replay L) (frame : String) :
    (r.map f).frames[frame]? = r.frames[frame]?.map (Session.map f) :=
  ExtTreeMap.getElem?_map

theorem frames_map_of_some (found : r.frames[frame]? = some s) :
    (r.map f).frames[frame]? = some (s.map f) := by
  rw [frames_map, found, Option.map_some]

theorem frames_map_of_none (absent : r.frames[frame]? = none) :
    (r.map f).frames[frame]? = none := by
  rw [frames_map, absent, Option.map_none]

theorem returned_map (f : L → M) (r : Replay L) (frame : String) :
    (r.map f).returned[frame]? = r.returned[frame]?.map (Option.map f) :=
  ExtTreeMap.getElem?_map

theorem returned_map_of_some {returned : Option L} (closed : r.returned[frame]? = some returned) :
    (r.map f).returned[frame]? = some (returned.map f) := by
  rw [returned_map, closed, Option.map_some]

theorem returned_map_of_none (absent : r.returned[frame]? = none) :
    (r.map f).returned[frame]? = none := by
  rw [returned_map, absent, Option.map_none]

theorem openFrames_map (f : L → M) (r : Replay L) : (r.map f).openFrames = r.openFrames :=
  ExtTreeMap.keys_map

theorem map_new (f : L → M) (policy : Policy) (keepGoing : Bool) :
    (new policy keepGoing : Replay L).map f = new policy keepGoing := by
  unfold map new Heap.map Heap.empty
  rw [FiniteMap.map_empty, FiniteMap.map_empty, FiniteMap.map_empty]

theorem reset_map (f : L → M) (r : Replay L) : (r.map f).reset = r.reset.map f :=
  (map_new f r.policy r.keepGoing).symm

theorem setSession_map (f : L → M) (r : Replay L) (frame : String) (s : Session L)
    (heap : Heap L) :
    ({ r.setSession frame s with heap := heap } : Replay L).map f =
      { (r.map f).setSession frame (s.map f) with heap := heap.map f } := by
  unfold setSession map
  rw [FiniteMap.map_insert]

theorem openRoot_map (f : L → M) (r : Replay L) (frame : String) (s : Session L) :
    (r.openRoot frame s).map f = (r.map f).openRoot frame (s.map f) := by
  unfold openRoot map
  rw [FiniteMap.map_insert]

theorem openFrame_map (f : L → M) (r : Replay L) (frame : String) (s : Session L) :
    (r.openFrame frame s).map f = (r.map f).openFrame frame (s.map f) := by
  unfold openFrame map
  rw [FiniteMap.map_insert, FiniteMap.map_erase]

theorem closeFrame_map (f : L → M) (r : Replay L) (frame : String) (returned : Option L) :
    (r.closeFrame frame returned).map f = (r.map f).closeFrame frame (returned.map f) := by
  unfold closeFrame map
  rw [FiniteMap.map_insert, FiniteMap.map_erase]

/-! ## §3  Steps -/

variable [Level L] [Level M] {r' : Replay L} {heap : Heap L} {action : Action L}
  {arguments : List (Operand L)} {steps : List (Step L)} {fault : Nat → ReplayFault}

theorem operandLevel_image (hf : LevelHom f) {level : Except Fault L}
    (operands : (s.operandLevel heap action.operands).result = level) :
    ((s.map f).operandLevel (heap.map f) (action.map f).operands).result = level.map f := by
  rw [Action.operands_map, hf.operandLevel, operands]

theorem argumentLevels_image (hf : LevelHom f) {levels : Except Fault (List L)}
    (operands : (s.argumentLevels heap arguments).result = levels) :
    ((s.map f).argumentLevels (heap.map f) (arguments.map (Operand.map f))).result =
      levels.map (List.map f) := by
  rw [hf.argumentLevels, operands]

theorem Acts.image (h : Acts r frame s r₁) (hf : LevelHom f) :
    Acts (r.map f) frame (s.map f) (r₁.map f) := by
  cases h with
  | isOpen found => exact .isOpen (frames_map_of_some found)
  | opens absent fresh =>
      rw [openRoot_map, hf.root]
      exact .opens (frames_map_of_none absent) fresh

/-- **What a step does is kept by a homomorphism of levels.** -/
theorem Does.image (h : Does r step r') (hf : LevelHom f)
    (htop : ∀ name, step.op = .action (.checkBelowTop name) → ∀ a, f a = top → a = top) :
    Does (r.map f) (step.map f) (r'.map f) := by
  cases h with
  | @action frame action s s' r₁ level reply heap' acts operands rule =>
      have hchecks : ∀ name, action.operation level = .checkBelowTop name →
          action = .checkBelowTop name := by
        intro name hop
        cases action with
        | checkBelowTop name' =>
            cases hop
            rfl
        | _ => cases hop
      have hrule := rule.image hf fun name hop =>
        htop name (congrArg TraceOp.action (hchecks name hop))
      rw [← Action.operation_map] at hrule
      rw [setSession_map]
      exact .action (acts.image hf) (operandLevel_image hf operands) hrule
  | call absent acts operands =>
      rw [openFrame_map, hf.call]
      exact .call (frames_map_of_none absent) (acts.image hf) (argumentLevels_image hf operands)
  | @close frame s r₁ acts balanced =>
      rw [closeFrame_map]
      exact .close (acts.image hf) ((Session.checkClose_map f s).trans balanced)
  | takeReturn closed acts rule =>
      have hrule := rule.image hf fun name hop => nomatch hop
      rw [Operation.map, hf.map_getD] at hrule
      rw [setSession_map]
      exact .takeReturn (returned_map_of_some closed) (acts.image hf) hrule

theorem DoesAll.image (h : DoesAll r steps r') (hf : LevelHom f)
    (htop : ∀ step ∈ steps, ∀ name, step.op = .action (.checkBelowTop name) →
      ∀ a, f a = top → a = top) :
    DoesAll (r.map f) (steps.map (Step.map f)) (r'.map f) := by
  induction h with
  | nil => exact .nil
  | cons does rest ih =>
      rw [List.map_cons]
      refine .cons (does.image hf (htop _ List.mem_cons_self)) (ih fun step hstep => ?_)
      exact htop step (List.mem_cons_of_mem _ hstep)

/-- **Under an embedding of levels a step that fails fails alike.** -/
theorem Stops.image (h : Stops r step fault r') (hf : LevelEmbedding f) :
    Stops (r.map f) (step.map f) fault (r'.map f) := by
  have hhom := hf.toLevelHom
  cases h with
  | calleeOpen found => exact .calleeOpen (frames_map_of_some found)
  | notReturned absent => exact .notReturned (returned_map_of_none absent)
  | @closed frame op ready absent opened =>
      refine .closed ?_ (frames_map_of_none absent) opened
      cases op with
      | call callee arguments => exact frames_map_of_none ready
      | takeReturn callee name =>
          show (r.map f).returned[callee]? ≠ none
          rw [returned_map]
          exact fun hnone => ready (Option.map_eq_none_iff.1 hnone)
      | _ => trivial
  | unread acts unread => exact .unread (acts.image hhom) (operandLevel_image hhom unread)
  | action acts operands fault =>
      have hfault := fault.image hf
      rw [← Action.operation_map] at hfault
      exact .action (acts.image hhom) (operandLevel_image hhom operands) hfault
  | call absent acts unread =>
      exact .call (frames_map_of_none absent) (acts.image hhom) (argumentLevels_image hhom unread)
  | @close frame s _ cause acts unbalanced =>
      exact .close (acts.image hhom) ((Session.checkClose_map f s).trans unbalanced)
  | takeReturn closed acts fault =>
      have hfault := fault.image hf
      rw [Operation.map, hf.map_getD] at hfault
      exact .takeReturn (returned_map_of_some closed) (acts.image hhom) hfault

end Replay

/-! ## §4  Runs -/

section Runs

variable [Level L] [Level M] {f : L → M}

/-- A run without an illegal flow has an image without an illegal flow. -/
theorem LevelHom.ending_run (hf : LevelHom f) {r : Replay L} {trace : Trace L}
    (hunbounded : ∀ step ∈ trace.steps, ∀ name, step.op ≠ .action (.checkBelowTop name))
    {report : Report} (hrun : (r.run trace).result = .ok report)
    (hclean : report.violations = []) :
    ((r.map f).run (trace.map f)).ending = (.ok report, (r.run trace).state.map f) := by
  obtain ⟨hdoes, hexecuted⟩ := Replay.doesAll_of_run hrun hclean
  have himage := hdoes.image hf fun step hstep name hop =>
    absurd hop (hunbounded step hstep name)
  rw [← Replay.reset_map] at himage
  have hreport : report = ⟨(trace.map f).steps.length, []⟩ := by
    rw [Trace.map, List.length_map, ← hexecuted, ← hclean]
  rw [hreport]
  exact himage.ending_run

theorem LevelEmbedding.ending_replaySteps (hf : LevelEmbedding f) (r : Replay L) (index : Nat)
    (report : Report) (steps : List (Step L)) :
    ((r.map f).replaySteps index report (steps.map (Step.map f))).ending =
      (r.replaySteps index report steps).ending.map id (Replay.map f) := by
  induction steps generalizing r index report with
  | nil => rfl
  | cons step steps ih =>
      rw [List.map_cons]
      rcases r.does_or_stops step with ⟨r₁, hdoes⟩ | ⟨fault, r₁, hstops⟩
      · have himage := hdoes.image hf.toLevelHom fun _ _ _ => hf.map_eq_top.1
        rw [himage.ending_replaySteps, hdoes.ending_replaySteps, ih]
      · have himage := hstops.image hf
        cases hviolation : (fault index).violation? with
        | none =>
            rw [himage.ending_replaySteps hviolation, hstops.ending_replaySteps hviolation]
            rfl
        | some v =>
            obtain ⟨rfl, -⟩ := hstops.eq_of_violation hviolation
            rw [himage.ending_replaySteps_violation hviolation,
              hstops.ending_replaySteps_violation hviolation, ih]
            -- both go on, or both stop here
            have hkeep : (r₁.map f).keepGoing = r₁.keepGoing := rfl
            rw [hkeep]
            split <;> rfl

/-- **A run and its image under an embedding come to the same end.** -/
theorem LevelEmbedding.ending_run (hf : LevelEmbedding f) (r : Replay L) (trace : Trace L) :
    ((r.map f).run (trace.map f)).ending = (r.run trace).ending.map id (Replay.map f) := by
  rw [Replay.ending_run, Replay.ending_run, Replay.reset_map]
  exact hf.ending_replaySteps r.reset 0 .empty trace.steps

end Runs

namespace Replay

variable [Level L] [LawfulBottom L]

/-- **Every observer may replay a trace over what he tells apart.** Let a trace
without checks against the greatest level be replayed without an illegal flow. Then
so is the trace in which each level stands as an observer sees it, as public or as
secret; and what that replay leaves is what the observer sees of the first. -/
theorem run_view (l : L) (policy : Policy) (keepGoing : Bool) (trace : Trace L)
    (hunbounded : ∀ step ∈ trace.steps, ∀ name, step.op ≠ .action (.checkBelowTop name))
    {report : Report} (hrun : ((new policy keepGoing).run trace).result = .ok report)
    (hclean : report.violations = []) :
    ((new policy keepGoing).run (trace.map (view l))).result = .ok report ∧
      ((new policy keepGoing).run (trace.map (view l))).state =
        ((new policy keepGoing).run trace).state.map (view l) := by
  have hview := (levelHom_view l).ending_run hunbounded hrun hclean
  rw [map_new] at hview
  exact ⟨congrArg Prod.fst hview, congrArg Prod.snd hview⟩

/-- Inside a branch on a value of the first category, a value of the second one is
written to a local and passed to a call, which returns it. -/
def twoCategories : Trace (CategorySet 2) where
  description := ""
  steps :=
    [⟨"main", .action (.declare "x")⟩, ⟨"main", .action (.label "x" ⟨0b01#2⟩)⟩,
      ⟨"main", .action (.enter ⟨"branch"⟩ [.local "x"])⟩, ⟨"main", .action (.declare "y")⟩,
      ⟨"main", .action (.write "y" [.literal ⟨0b10#2⟩])⟩, ⟨"main", .call "f" [.local "y"]⟩,
      ⟨"main", .action (.exit ⟨"branch"⟩)⟩, ⟨"f", .action (.bindArgument 0 "a")⟩,
      ⟨"f", .action (.returnLocal "a")⟩, ⟨"f", .close⟩, ⟨"main", .takeReturn "f" "y"⟩,
      ⟨"main", .action (.checkSink "x" ⟨0b01#2⟩)⟩]

theorem run_view_twoCategories :
    ((new {} false).run twoCategories).result = .ok ⟨12, []⟩ ∧
      ((new {} false).run (twoCategories.map (view ⟨0b01#2⟩))).result = .ok ⟨12, []⟩ ∧
      ((new {} false).run (twoCategories.map (view ⟨0b01#2⟩))).state =
        ((new {} false).run twoCategories).state.map (view ⟨0b01#2⟩) := by
  have hunbounded : ∀ step ∈ twoCategories.steps, ∀ name,
      step.op ≠ .action (.checkBelowTop name) := by
    simp [twoCategories]
  have hrun : ((new {} false).run twoCategories).result = .ok ⟨12, []⟩ := by rfl
  have hview := run_view ⟨0b01#2⟩ {} false twoCategories hunbounded hrun rfl
  exact ⟨hrun, hview⟩

end Replay

end InfoFlow
