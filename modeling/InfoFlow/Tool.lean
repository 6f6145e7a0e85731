import InfoFlow.Level.Chain
import InfoFlow.Level.Json
import InfoFlow.Replay
import InfoFlow.Settings.Toml
import InfoFlow.Trace.Json

/-!
# The replay tool

The tool finds its settings, reads a trace over the chain of levels that they
name, replays it and reports. Files come in as *sources*: a path with the
content that was found there.
-/

namespace InfoFlow

/-- A file: its path, and its content if it can be read. -/
structure Source where
  path : String
  content : Option String
deriving DecidableEq, Repr

/-- Why a trace could not be replayed to its end. -/
inductive TraceFault where
  | malformed
  | aborted (cause : ReplayFault)
deriving DecidableEq, Repr

/-- The fault and what is behind it, outermost first. -/
def TraceFault.messages : TraceFault → List String
  | malformed => ["Malformed trace"]
  | aborted cause => cause.message :: (cause.cause?.map Fault.message).toList

/-- What the tool gives up on. -/
inductive ToolFault where
  | unreadableConfig (path : String)
  | invalidConfig (path : String)
  | unreadableTrace (path : String)
  | replayFailed (path : String) (fault : TraceFault)
deriving DecidableEq, Repr

namespace ToolFault

def message : ToolFault → String
  | unreadableConfig path => s!"Failed to read config {path}"
  | invalidConfig path => s!"Invalid config {path}"
  | unreadableTrace path => s!"Failed to read trace {path}"
  | replayFailed path _ => s!"Replay of {path} failed"

/-- The fault and what is behind it, outermost first. -/
def messages : ToolFault → List String
  | replayFailed path fault => message (replayFailed path fault) :: fault.messages
  | fault => [fault.message]

end ToolFault

namespace Settings

/-- The settings that a file holds. -/
def load (source : Source) : Except ToolFault Settings :=
  match source.content with
  | none => .error (.unreadableConfig source.path)
  | some text =>
      match readToml? text with
      | none => .error (.invalidConfig source.path)
      | some settings => .ok settings

/-- The settings in force: those of the file named on the command line, else
those of the file that the environment names, else the defaults. -/
def resolve (commandLine environment : Option Source) : Except ToolFault Settings :=
  match commandLine.or environment with
  | some source => load source
  | none => .ok {}

end Settings

/-- Replay the trace that a text writes. -/
def replayText (L : Type) [Level L] [JsonLevel L] (text : String) (policy : Policy)
    (keepGoing : Bool) : Except TraceFault Report :=
  match (Trace.read? text : Option (Trace L)) with
  | none => .error .malformed
  | some trace => ((Replay.new policy keepGoing).run trace).result.mapError .aborted

/-- What a user asks of a replay beyond the settings. -/
structure ReplayOptions where
  /-- Replay over these levels, whatever the settings say. -/
  lattice : Option Chain := none
  /-- Go on after illegal flows, even if the settings do not say so. -/
  keepGoing : Bool := false
  /-- Report in JSON. -/
  json : Bool := false
deriving DecidableEq, Repr

/-- Replay the trace in a file. -/
def replayFile (trace : Source) (options : ReplayOptions) (settings : Settings) :
    Except ToolFault Report :=
  match trace.content with
  | none => .error (.unreadableTrace trace.path)
  | some text =>
      let keepGoing := options.keepGoing || settings.keepGoing
      let report := match options.lattice.getD settings.lattice with
        | .two => replayText TwoLevel text settings.monitor keepGoing
        | .three => replayText ThreeLevel text settings.monitor keepGoing
      report.mapError (.replayFailed trace.path)

end InfoFlow
