/-!
# Replay reports

What a replay that was not aborted found out: the number of steps executed and
the illegal flows, and the report as plain text.
-/

namespace InfoFlow

/-- An illegal flow: the number of the step, counted from 0, and its frame. -/
structure Violation where
  step : Nat
  frame : String
  message : String
deriving DecidableEq, Repr

structure Report where
  stepsExecuted : Nat
  violations : List Violation
deriving DecidableEq, Repr

namespace Report

/-- No step was executed yet. -/
def empty : Report := ⟨0, []⟩

def isClean (report : Report) : Bool := report.violations.isEmpty

/-- The line on an illegal flow. -/
def violationLine (v : Violation) : String :=
  s!"  [step {v.step}] {v.frame}: {v.message}\n"

/-- The report as plain text. -/
def text (report : Report) : String :=
  s!"Steps executed: {report.stepsExecuted}\n" ++
    if report.isClean then "No illegal flows found\n"
    else
      s!"Illegal flows: {report.violations.length}\n" ++
        String.join (report.violations.map violationLine)

end Report

end InfoFlow
