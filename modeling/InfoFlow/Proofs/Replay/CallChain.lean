import Mathlib.Data.Finset.Erase
import Mathlib.Data.Finset.Insert
import InfoFlow.Level.Chain
import InfoFlow.Proofs.Replay.Rules
import InfoFlow.Proofs.Session.Commit

/-!
# What a call hands down

A frame called while the program counter is at `g` runs at `g` or above, and so
does every frame called from it, however far down and however late. What such
frames commit and return is at `g` or above as well (`CallChain.bounded_below`).

The activations that descend from one call are followed by a `Lineage`. It is
kept by names: an open frame has one activation, and one that has closed may be
called again as an activation of another lineage.
-/

namespace InfoFlow

open Level (bottom)
open LawfulJoin

variable {L : Type}

/-! ## §1  Lineages -/

/-- The activations that descend from one call: those that are open, and those
that were the last of their frame and have closed. -/
structure Lineage where
  active : Finset String
  returned : Finset String

namespace Lineage

def ofCall (callee : String) : Lineage := ⟨{callee}, ∅⟩

/-- The lineage after a step that succeeded. A call by one of its frames adds an
activation, which stays until it closes. What a closed frame has returned is
forgotten when the frame is called again. -/
def next (lineage : Lineage) (step : Step L) : Lineage :=
  match step.op with
  | .action _ => lineage
  | .takeReturn _ _ => lineage
  | .call callee _ =>
      { active :=
          if step.frame ∈ lineage.active then insert callee lineage.active
          else lineage.active
        returned := lineage.returned.erase callee }
  | .close =>
      { active := lineage.active.erase step.frame
        returned :=
          if step.frame ∈ lineage.active then insert step.frame lineage.returned
          else lineage.returned.erase step.frame }

variable [Level L]

/-- The lineage after these steps of a replay. -/
def after (lineage : Lineage) (r : Replay L) (index : Nat) : List (Step L) → Lineage
  | [] => lineage
  | step :: steps =>
      (if (r.apply index step).result.isOk then lineage.next step else lineage).after
        (r.apply index step).state (index + 1) steps

/-- The step is taken by a frame of the lineage, or reads a return level that a
frame of the lineage has recorded. -/
def Concerns (lineage : Lineage) (r : Replay L) (step : Step L) : Prop :=
  step.frame ∈ lineage.active ∨
    ∃ callee name level, step.op = .takeReturn callee name ∧ callee ∈ lineage.returned ∧
      r.returned[callee]? = some (some level)

/-- The sessions of a lineage are above `g`, and so is what they have returned. -/
structure Above (g : L) (lineage : Lineage) (r : Replay L) : Prop where
  active : ∀ f ∈ lineage.active, ∃ s, r.frames[f]? = some s ∧ s.Above g
  returned : ∀ f ∈ lineage.returned, ∀ level, r.returned[f]? = some (some level) → g ≤ level

variable {g : L} {lineage : Lineage} {r r₁ r' : Replay L} {frame : String} {s s' : Session L}

theorem Above.acts (h : lineage.Above g r) (hacts : r.Acts frame s r₁) : lineage.Above g r₁ := by
  constructor
  · intro f hf
    obtain ⟨other, hfound, habove⟩ := h.active f hf
    exact ⟨other, hacts.frames_of_some hfound, habove⟩
  · intro f hf level hreturned
    exact h.returned f hf level (hacts.returned_of_some hreturned)

theorem Above.session (h : lineage.Above g r) (hacts : r.Acts frame s r₁)
    (hframe : frame ∈ lineage.active) : s.Above g := by
  obtain ⟨other, hfound, habove⟩ := h.active frame hframe
  have hsame := hacts.frames_of_some hfound
  rw [hacts.found] at hsame
  cases hsame
  exact habove

theorem Above.setSession (h : lineage.Above g r) (hs : frame ∈ lineage.active → s'.Above g)
    (heap : Heap L) : lineage.Above g { r.setSession frame s' with heap := heap } := by
  constructor
  · intro f hf
    show ∃ s, (r.setSession frame s').frames[f]? = some s ∧ s.Above g
    rw [Replay.frames_setSession]
    by_cases hsame : f = frame
    · subst hsame
      exact ⟨s', if_pos rfl, hs hf⟩
    · rw [if_neg hsame]
      exact h.active f hf
  · intro f hf level hreturned
    exact h.returned f hf level hreturned

variable [LawfulJoin L]

theorem Above.openFrame {callee : String} {arguments : List (Operand L)} {levels : List L}
    (h : lineage.Above g r) (hcallee : callee ∉ lineage.active)
    (hcaller : frame ∈ lineage.active → s.Above g) :
    (lineage.next ⟨frame, .call callee arguments⟩).Above g
      (r.openFrame callee (s.call callee levels)) := by
  constructor
  · intro f hf
    rw [Replay.frames_openFrame]
    by_cases hsame : f = callee
    · subst hsame
      refine ⟨s.call f levels, if_pos rfl, ?_⟩
      by_cases hframe : frame ∈ lineage.active
      · exact Session.above_call (hcaller hframe).le_pc f levels
      · simp only [next, if_neg hframe] at hf
        exact absurd hf hcallee
    · rw [if_neg hsame]
      refine h.active f ?_
      simp only [next] at hf
      split at hf
      · exact (Finset.mem_insert.1 hf).resolve_left hsame
      · exact hf
  · intro f hf level hreturned
    rw [Replay.returned_openFrame] at hreturned
    split at hreturned
    · cases hreturned
    · exact h.returned f (Finset.mem_of_mem_erase hf) level hreturned

omit [LawfulJoin L] in
theorem Above.closeFrame (h : lineage.Above g r) (hs : frame ∈ lineage.active → s.Above g) :
    (lineage.next (⟨frame, .close⟩ : Step L)).Above g (r.closeFrame frame s.returned) := by
  constructor
  · intro f hf
    obtain ⟨hne, hf⟩ := Finset.mem_erase.1 hf
    rw [Replay.frames_closeFrame, if_neg hne]
    exact h.active f hf
  · intro f hf level hreturned
    rw [Replay.returned_closeFrame] at hreturned
    by_cases hsame : f = frame
    · -- the return level of the frame is now the one of this session
      subst hsame
      rw [if_pos rfl] at hreturned
      by_cases hframe : f ∈ lineage.active
      · exact (hs hframe).returned level (Option.some.inj hreturned)
      · simp [next, hframe] at hf
    · rw [if_neg hsame] at hreturned
      refine h.returned f ?_ level hreturned
      simp only [next] at hf
      split at hf
      · exact (Finset.mem_insert.1 hf).resolve_left hsame
      · exact Finset.mem_of_mem_erase hf

theorem Above.does (h : lineage.Above g r) {step : Step L} (hdoes : r.Does step r') :
    (lineage.next step).Above g r' := by
  cases hdoes with
  | action acts operands rule =>
      exact (h.acts acts).setSession (fun hframe => rule.above (h.session acts hframe)) _
  | @call frame callee arguments s r₁ levels absent acts operands =>
      -- the frames of the lineage are open, the callee is not
      have hcallee : callee ∉ lineage.active := by
        intro hmem
        obtain ⟨other, hfound, -⟩ := h.active callee hmem
        rw [absent] at hfound
        cases hfound
      exact (h.acts acts).openFrame hcallee (h.session acts)
  | close acts balanced => exact (h.acts acts).closeFrame (h.session acts)
  | takeReturn closed acts rule =>
      exact (h.acts acts).setSession (fun hframe => rule.above (h.session acts hframe)) _

theorem Above.apply (h : lineage.Above g r) (index : Nat) (step : Step L) :
    (if (r.apply index step).result.isOk then lineage.next step else lineage).Above g
      (r.apply index step).state := by
  rcases r.apply_cases index step with ⟨hok, hdoes⟩ | ⟨hfailed, hstate⟩
  · rw [hok]
    exact h.does hdoes
  · rw [hfailed, if_neg Bool.false_ne_true]
    rcases hstate with hsame | ⟨s, hacts⟩
    · rw [hsame]
      exact h
    · exact h.acts hacts

/-- **A lineage stays above the call that began it.** -/
theorem Above.after (h : lineage.Above g r) (index : Nat) (steps : List (Step L)) :
    (lineage.after r index steps).Above g (r.after index steps) := by
  induction steps generalizing lineage r index with
  | nil => exact h
  | cons step steps ih => exact ih (h.apply index step) (index + 1)

end Lineage

/-! ## §2  What the frames of a lineage commit -/

/-- Where an action commits, if it is a commit. -/
def Action.target? : Action L → Option Target
  | write name _ => some (.local name)
  | writeField object field _ => some (.slot object field)
  | writeElement array index _ => some (.slot array (indexKey index))
  | bindArgument _ name => some (.local name)
  | returnLocal _ => some .result
  | returnConstant => some .result
  | _ => none

theorem Action.target?_operation (action : Action L) (level : L) :
    (action.operation level).target? = action.target? := by
  cases action <;> rfl

/-- Where a step commits, if it is a commit. -/
def TraceOp.target? : TraceOp L → Option Target
  | action act => act.target?
  | takeReturn _ name => some (.local name)
  | _ => none

/-- The level at a target as an open frame sees it, if there is one. -/
def Replay.levelAt? (r : Replay L) (frame : String) (target : Target) : Option L :=
  r.frames[frame]?.bind fun s => s.levelAt? r.heap target

theorem Replay.levelAt?_setSession (r : Replay L) (frame : String) (s : Session L) (heap : Heap L)
    (target : Target) :
    ({ r.setSession frame s with heap := heap } : Replay L).levelAt? frame target =
      s.levelAt? heap target := by
  unfold levelAt?
  show (r.setSession frame s).frames[frame]?.bind _ = _
  rw [frames_setSession, if_pos rfl]
  rfl

variable [Level L] [LawfulJoin L]

/-- A commit that concerns a lineage above `g` commits a level at `g` or above. -/
theorem Lineage.Above.le_committed {g : L} {lineage : Lineage} {r r' : Replay L}
    (h : lineage.Above g r) {step : Step L} (hdoes : r.Does step r')
    (hconcerns : lineage.Concerns r step) {target : Target}
    (htarget : step.op.target? = some target) :
    ∃ level, r'.levelAt? step.frame target = some level ∧ g ≤ level := by
  cases hdoes with
  | @action frame action s s' r₁ level reply heap' acts operands rule =>
      rcases hconcerns with hframe | ⟨callee, name, level, htake, -⟩
      · rw [Replay.levelAt?_setSession]
        refine rule.le_committed (h.session acts hframe) ?_
        rw [Action.target?_operation]
        exact htarget
      · cases htake
  | call absent acts operands => cases htarget
  | close acts balanced => cases htarget
  | @takeReturn frame callee name returned s s' r₁ reply heap' closed acts rule =>
      rw [Replay.levelAt?_setSession]
      rcases hconcerns with hframe | ⟨callee', name', level, htake, hcallee, hreturned⟩
      · exact rule.le_committed (h.session acts hframe) htarget
      · cases htake
        obtain ⟨committed, hreply, hcommitted, -⟩ := rule.commits htarget
        refine ⟨committed, hcommitted, ?_⟩
        -- what is written is the join of the return level and the program counter
        have hreplied := rule.of_write.1
        rw [hreply] at hreplied
        obtain rfl : some level = returned := Option.some.inj (hreturned.symm.trans closed)
        rw [Reply.level.inj hreplied]
        exact le_join_of_le_left _ (h.returned callee hcallee level hreturned)

/-! ## §3  Call chains -/

/-- A call, and what happens after it. -/
structure CallChain (L : Type) where
  before : Replay L
  /-- The number of the call in its trace. -/
  index : Nat
  caller : String
  callee : String
  arguments : List (Operand L)
  steps : List (Step L)

namespace CallChain

def call (c : CallChain L) : Outcome ReplayFault (Replay L) Unit :=
  c.before.apply c.index ⟨c.caller, .call c.callee c.arguments⟩

/-- The program counter of the caller at the call. -/
def level (c : CallChain L) : L := (c.before.current c.caller).pc.level

def now (c : CallChain L) : Replay L := c.call.state.after (c.index + 1) c.steps

/-- The activations that descend from the call by then. -/
def lineage (c : CallChain L) : Lineage :=
  (Lineage.ofCall c.callee).after c.call.state (c.index + 1) c.steps

theorem above_ofCall {c : CallChain L} (h : c.call.result = .ok ()) :
    (Lineage.ofCall c.callee).Above c.level c.call.state := by
  have hdoes : c.before.Does ⟨c.caller, .call c.callee c.arguments⟩ c.call.state :=
    Replay.does_of_ok h
  constructor
  · intro f hf
    obtain rfl := Finset.mem_singleton.1 hf
    generalize c.call.state = opened at hdoes
    cases hdoes with
    | @call _ _ _ s r₁ levels absent acts operands =>
        refine ⟨s.call c.callee levels, ?_, ?_⟩
        · rw [Replay.frames_openFrame, if_pos rfl]
        · refine Session.above_call ?_ c.callee levels
          unfold level
          rw [acts.current_eq]
          exact le_refl _
  · intro f hf
    exact absurd hf (Finset.notMem_empty f)

/-- **Call chains are confined to the program counter of the call.** Let a frame
be called when the caller's program counter is at `g`, and let anything happen
after it: the caller may leave its branch, close, or be called again. Every open
activation that descends from the call has its program counter and its arguments
at `g` or above. Whatever such an activation commits next is at `g` or above, and
so is whatever any frame commits next by taking a return level that a closed
activation of the lineage has recorded. -/
theorem bounded_below {c : CallChain L} (h : c.call.result = .ok ()) :
    (∀ f ∈ c.lineage.active, ∃ s, c.now.frames[f]? = some s ∧ c.level ≤ s.pc.level ∧
      ∀ argument ∈ s.arguments, c.level ≤ argument) ∧
    ∀ (index : Nat) (step : Step L) (target : Target),
      (c.now.apply index step).result = .ok () → c.lineage.Concerns c.now step →
      step.op.target? = some target →
      ∃ level, (c.now.apply index step).state.levelAt? step.frame target = some level ∧
        c.level ≤ level := by
  have habove : c.lineage.Above c.level c.now := (above_ofCall h).after (c.index + 1) c.steps
  constructor
  · intro f hf
    obtain ⟨s, hfound, hs⟩ := habove.active f hf
    exact ⟨s, hfound, hs.le_pc, hs.arguments⟩
  · intro index step target hok hconcerns htarget
    exact habove.le_committed (Replay.does_of_ok hok) hconcerns htarget

/-- In a confidential branch `main` calls `f`, which calls `g` when the branch has
been left. Both return, `f` is called again from outside the branch. -/
def leavingBranch : CallChain ThreeLevel where
  before := (Replay.new {} false).after 0
    [⟨"main", .action (.declare "x")⟩, ⟨"main", .action (.enter ⟨"branch"⟩ [.literal .medium])⟩]
  index := 2
  caller := "main"
  callee := "f"
  arguments := [.constant]
  steps :=
    [⟨"main", .action (.exit ⟨"branch"⟩)⟩, ⟨"f", .call "g" [.constant]⟩,
      ⟨"f", .action .returnConstant⟩, ⟨"f", .close⟩, ⟨"main", .call "f" []⟩,
      ⟨"g", .action (.bindArgument 0 "y")⟩, ⟨"g", .action (.returnLocal "y")⟩, ⟨"g", .close⟩]

theorem bounded_below_leavingBranch :
    leavingBranch.call.result = .ok () ∧ leavingBranch.level = .medium ∧
    ∃ level, (leavingBranch.now.apply 11 ⟨"main", .takeReturn "g" "x"⟩).state.levelAt? "main"
      (.local "x") = some level ∧ .medium ≤ level := by
  have hcall : leavingBranch.call.result = .ok () := by rfl
  have hconcerns :
      leavingBranch.lineage.Concerns leavingBranch.now ⟨"main", .takeReturn "g" "x"⟩ :=
    Or.inr ⟨"g", "x", .medium, rfl, by decide, by rfl⟩
  refine ⟨hcall, by rfl, ?_⟩
  exact (bounded_below hcall).2 11 ⟨"main", .takeReturn "g" "x"⟩ (.local "x") (by rfl) hconcerns rfl

end CallChain

end InfoFlow
