import InfoFlow.Json.Layout
import InfoFlow.Json.Reader
import InfoFlow.Report

/-!
# Reports in JSON

A report has the fields `steps_executed` and `violations`, a violation the
fields `step`, `frame` and `message`. Step counts and numbers are below
`2 ^ 64`.
-/

namespace InfoFlow

/-- A count or a number of a step. -/
def Json.count? (json : Json) : Option Nat := json.word?.map UInt64.toNat

namespace Violation

def toJson (v : Violation) : Json :=
  .record [("step", .natural v.step), ("frame", .text v.frame), ("message", .text v.message)]

def ofJson? (json : Json) : Option Violation := do
  let [step, frame, message] ← json.fields? ["step", "frame", "message"] | none
  return ⟨← Json.required Json.count? step, ← Json.required Json.text? frame,
    ← Json.required Json.text? message⟩

end Violation

namespace Report

def toJson (report : Report) : Json :=
  .record
    [("steps_executed", .natural report.stepsExecuted),
      ("violations", .array (report.violations.map Violation.toJson))]

def ofJson? (json : Json) : Option Report := do
  let [steps, violations] ← json.fields? ["steps_executed", "violations"] | none
  return ⟨← Json.required Json.count? steps,
    ← Json.required (Json.list? Violation.ofJson?) violations⟩

/-- The report that a text writes. -/
def read? (text : String) : Option Report := do
  ofJson? (← Json.read? text)

/-- The report in JSON over several lines, with a line break at the end. -/
def jsonText (report : Report) : String := report.toJson.indented ++ "\n"

/-- The report as plain text or in JSON. -/
def render (report : Report) (json : Bool) : String :=
  if json then report.jsonText else report.text

end Report

end InfoFlow
