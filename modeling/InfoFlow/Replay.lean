import InfoFlow.Report
import InfoFlow.Session.Action
import Std.Data.ExtTreeSet

/-!
# Replaying traces

A replay carries out the steps of a trace on live sessions. The first step
of a frame opens it as a root frame, unless a call has opened it; a frame that
has closed stays closed until it is called again. Illegal flows go into the
report; every other failure aborts the replay.
-/

namespace InfoFlow

open Std (ExtTreeMap ExtTreeSet)
open Level (bottom)

/-- What aborts a replay. Steps are counted from 0. -/
inductive ReplayFault where
  | alreadyOpen (step : Nat) (frame : String)
  | notReturned (step : Nat) (frame : String)
  | alreadyClosed (step : Nat) (frame : String)
  | fault (step : Nat) (frame : String) (cause : Fault)
deriving DecidableEq, Repr

namespace ReplayFault

def message : ReplayFault → String
  | alreadyOpen step frame => s!"Step {step}: frame '{frame}' is already open"
  | notReturned step frame => s!"Step {step}: frame '{frame}' has not returned"
  | alreadyClosed step frame => s!"Step {step}: frame '{frame}' is already closed"
  | fault step frame cause => s!"Step {step} in frame '{frame}': {cause.message}"

/-- The word for the kind of fault. -/
def kind : ReplayFault → String
  | alreadyOpen .. => "FrameInUse"
  | notReturned .. => "NoReturn"
  | alreadyClosed .. => "FrameClosed"
  | fault _ _ cause => "Monitor." ++ cause.kind

/-- The failure of the monitor behind the fault, if there is one. -/
def cause? : ReplayFault → Option Fault
  | fault _ _ cause => some cause
  | _ => none

/-- The illegal flow that a step ended in, if that is what happened. -/
def violation? : ReplayFault → Option Violation
  | fault step frame cause =>
      if cause.isViolation then some ⟨step, frame, cause.message⟩ else none
  | _ => none

end ReplayFault

/-- The report after one step more: an illegal flow is put down in it, every
other fault aborts. -/
def Report.afterStep (report : Report) : Except ReplayFault Unit → Except ReplayFault Report
  | .ok () => .ok { report with stepsExecuted := report.stepsExecuted + 1 }
  | .error e =>
      match e.violation? with
      | some v => .ok ⟨report.stepsExecuted + 1, report.violations ++ [v]⟩
      | none => .error e

/-- The state of a replay. -/
structure Replay (L : Type) where
  policy : Policy
  /-- Go on after an illegal flow. -/
  keepGoing : Bool
  heap : Heap L
  /-- The open frames. -/
  frames : ExtTreeMap String (Session L)
  /-- Every frame that was opened in this run. -/
  opened : ExtTreeSet String
  /-- What the closed frames returned, if anything. -/
  returned : ExtTreeMap String (Option L)

namespace Replay

variable {L : Type}

/-- A replay that has done nothing yet. -/
def new (policy : Policy) (keepGoing : Bool) : Replay L where
  policy
  keepGoing
  heap := .empty
  frames := ∅
  opened := ∅
  returned := ∅

/-- Forget all frames and clear the heap. -/
def reset (r : Replay L) : Replay L := new r.policy r.keepGoing

/-- The open frames, in the order of their names. -/
def openFrames (r : Replay L) : List String := r.frames.keys

/-- Put a session in the place of an open one. -/
def setSession (r : Replay L) (frame : String) (s : Session L) : Replay L :=
  { r with frames := r.frames.insert frame s }

/-- Add the session of a frame that this run has not seen. -/
def openRoot (r : Replay L) (frame : String) (s : Session L) : Replay L :=
  { r with
    frames := r.frames.insert frame s
    opened := r.opened.insert frame }

/-- Add the session of a frame that is called. What it returned before is forgotten. -/
def openFrame (r : Replay L) (frame : String) (s : Session L) : Replay L :=
  { r with
    frames := r.frames.insert frame s
    opened := r.opened.insert frame
    returned := r.returned.erase frame }

/-- Take the session of a frame away and keep what it returned. -/
def closeFrame (r : Replay L) (frame : String) (returned : Option L) : Replay L :=
  { r with
    frames := r.frames.erase frame
    returned := r.returned.insert frame returned }

variable [Level L]

/-- See to it that a frame is open. A frame that this run has not seen is opened as
a root frame; one that has closed is refused. -/
def ensureOpen (r : Replay L) (step : Nat) (frame : String) : Outcome ReplayFault (Replay L) Unit :=
  if r.frames.contains frame then .ok r ()
  else if r.opened.contains frame then .fail r (.alreadyClosed step frame)
  else
    let root : Session L := .root r.policy
    .noted (r.openRoot frame (root.named frame)) ()
      [.line ⟨.debug, none, s!"Step {step}: opening root frame '{frame}'"⟩, root.openingNote]

/-- The session of a frame, which is opened first if this run has not seen it. -/
def session (r : Replay L) (step : Nat) (frame : String) :
    Outcome ReplayFault (Replay L) (Session L) :=
  (r.ensureOpen step frame).andThen fun _ r =>
    match r.frames[frame]? with
    | some s => .ok r s
    | none => .fail r (.alreadyClosed step frame)

/-- Let the session of a frame do something on the heap. -/
def onSession {α : Type} (r : Replay L) (step : Nat) (frame : String)
    (act : Session L → Heap L → Outcome Fault (Session L × Heap L) α) :
    Outcome ReplayFault (Replay L) α :=
  (r.session step frame).andThen fun s r =>
    ((act s r.heap).mapError (.fault step frame)).mapState fun (s, heap) =>
      { r.setSession frame s with heap }

/-- Open frame `callee` from an open frame. -/
def call (r : Replay L) (step : Nat) (frame callee : String) (arguments : List (Operand L)) :
    Outcome ReplayFault (Replay L) Unit :=
  if r.frames.contains callee then .fail r (.alreadyOpen step callee)
  else
    (r.session step frame).andThen fun caller r =>
      (((caller.argumentLevels r.heap arguments).mapError (.fault step frame)).mapState
        fun _ => r).andThen fun levels r =>
          let s := caller.call callee levels
          .noted (r.openFrame callee s) ()
            [s.openingNote, .line ⟨.debug, none, s!"Step {step}: '{frame}' calls '{callee}'"⟩]

/-- Take the session of a frame out, end it, and keep what it returned. -/
def finish (r : Replay L) (step : Nat) (frame : String) : Outcome ReplayFault (Replay L) Unit :=
  match r.frames[frame]? with
  | none => .ok r ()
  | some s =>
      ((s.close.mapError (.fault step frame)).mapState fun _ =>
        { r with frames := r.frames.erase frame }).andThen fun returned r =>
          .ok { r with returned := r.returned.insert frame returned } ()

/-- Close a frame. If it may not close yet, it stays open as it is. -/
def close (r : Replay L) (step : Nat) (frame : String) : Outcome ReplayFault (Replay L) Unit :=
  (r.session step frame).andThen fun s r =>
    ((Outcome.ofExcept r s.checkClose).mapError (.fault step frame)).andThen fun _ r =>
      r.finish step frame

/-- Assign what a closed frame returned to a local; a frame that returned
nothing counts as having returned a public value. -/
def takeReturn (r : Replay L) (step : Nat) (frame callee name : String) :
    Outcome ReplayFault (Replay L) Unit :=
  match r.returned[callee]? with
  | none => .fail r (.notReturned step callee)
  | some returned =>
      (r.onSession step frame (Operation.write name (returned.getD bottom)).perform).map
        fun _ => ()

/-- Carry out one step of a trace. -/
def apply (r : Replay L) (index : Nat) (step : Step L) :
    Outcome ReplayFault (Replay L) Unit :=
  match step.op with
  | .action action => (r.onSession index step.frame action.perform).map fun _ => ()
  | .call callee arguments => r.call index step.frame callee arguments
  | .close => r.close index step.frame
  | .takeReturn callee name => r.takeReturn index step.frame callee name

/-- Carry out steps, the first of which has number `index`, and go on with the
report. -/
def replaySteps (r : Replay L) (index : Nat) (report : Report) :
    List (Step L) → Outcome ReplayFault (Replay L) Report
  | [] => .ok r report
  | step :: steps =>
      let outcome := r.apply index step
      match report.afterStep outcome.result with
      | .error e => ⟨.error e, outcome.state, outcome.journal⟩
      | .ok report =>
          if outcome.result.isOk || r.keepGoing then
            (outcome.state.replaySteps (index + 1) report steps).since outcome.journal
          else ⟨.ok report, outcome.state, outcome.journal⟩

/-- The note on a replay that came to its end. -/
def finishedNote (report : Report) : Note :=
  .line ⟨.info, none,
    s!"Replay finished: {report.stepsExecuted} step(s), {report.violations.length} violation(s)"⟩

/-- Replay a trace from a fresh state. What it leaves can be inspected until
the next run. -/
def run (r : Replay L) (trace : Trace L) : Outcome ReplayFault (Replay L) Report :=
  (r.reset.replaySteps 0 .empty trace.steps).andThen fun report r =>
    .noted r report [finishedNote report]

end Replay

end InfoFlow
