/-!
# What the monitor writes down

Besides its answer, every operation leaves notes: lines of a log, and ticks of
counters that a supervisor may watch.
-/

namespace InfoFlow

/-- How important a log line is. -/
inductive Severity where
  | trace
  | debug
  | info
  | warn
deriving DecidableEq, Repr

def Severity.text : Severity → String
  | .trace => "TRACE"
  | .debug => "DEBUG"
  | .info => "INFO"
  | .warn => "WARN"

/-- A line of the log; it names the frame when one frame is concerned. -/
structure LogLine where
  severity : Severity
  frame : Option String
  message : String
deriving DecidableEq, Repr

def LogLine.text (line : LogLine) : String :=
  match line.frame with
  | some frame => s!"{line.severity.text} [{frame}] {line.message}"
  | none => s!"{line.severity.text} {line.message}"

inductive Counter where
  | illegalFlows
  | wrongExits
deriving DecidableEq, Repr

def Counter.name : Counter → String
  | .illegalFlows => "flowmon_illegal_flows_total"
  | .wrongExits => "flowmon_scope_mismatches_total"

inductive Note where
  | line (line : LogLine)
  | tick (counter : Counter)
deriving DecidableEq, Repr

/-- What was written down, in order. -/
abbrev Journal := List Note

namespace Journal

/-- The lines of the log. -/
def lines (journal : Journal) : List LogLine :=
  journal.filterMap fun
    | .line line => some line
    | .tick _ => none

/-- How often a counter ticked. -/
def count (journal : Journal) (counter : Counter) : Nat :=
  List.count (.tick counter) journal

end Journal

end InfoFlow
