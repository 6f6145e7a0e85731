import InfoFlow.Json.Layout
import InfoFlow.Json.Reader
import InfoFlow.Level.Json
import InfoFlow.Trace

/-!
# Traces in JSON

A trace is an object with a `description`, which may be left out, and `steps`;
a step has a `frame` and an `op`. Operations and operands are told apart by
their `kind`, beside which their fields stand. Lists of operands may be left
out when they are empty. As everywhere, an array of the fields in their order
may stand for an object, with the kind in front.

An operation is kept aside while its kind is looked for. Arrays and objects of
a trace may nest to 127 levels where their contents are kept; the trace, the
list of steps and the step take the outermost three.
-/

namespace InfoFlow

variable {L : Type} [JsonLevel L]

/-- A structure with a kind. -/
def Json.variant (kind : String) (fields : List (String × Json)) : Json :=
  .record (("kind", .text kind) :: fields)

/-- The number of an array index, length, position or handle. -/
def Json.word (n : UInt64) : Json := .natural n.toNat

namespace Handle

def toJson (id : Handle) : Json := .word id.raw

def ofJson? (json : Json) : Option Handle := json.word?.map (⟨·⟩)

end Handle

namespace Tag

def toJson (tag : Tag) : Json := .text tag.text

def ofJson? (json : Json) : Option Tag := json.text?.map (⟨·⟩)

end Tag

/-! ## Operands -/

namespace Operand

/-- The kinds of operands, in the order in which a number may stand for them. -/
def kinds : List String := ["local", "field", "array_slot", "constant", "level"]

/-- The kind of an operand: its name, or its number. -/
def kind? : Json → Option String
  | .string kind => kind
  | .number (.integer false n) => kinds[n]?
  | _ => none

def toJson : Operand L → Json
  | .local name => .variant "local" [("name", .text name)]
  | .field object name => .variant "field" [("object", object.toJson), ("field", .text name)]
  | .element array index =>
      .variant "array_slot" [("array", array.toJson), ("index", .word index)]
  | .constant => .variant "constant" []
  | .literal level => .variant "level" [("level", JsonLevel.toJson level)]

/-- The operand of a kind with these fields. -/
def ofFields? (kind : String) (fields : Json) : Option (Operand L) :=
  match kind with
  | "local" => do
      let [name] ← fields.fields? ["name"] | none
      return .local (← Json.required Json.text? name)
  | "field" => do
      let [object, name] ← fields.fields? ["object", "field"] | none
      return .field (← Json.required Handle.ofJson? object) (← Json.required Json.text? name)
  | "array_slot" => do
      let [array, index] ← fields.fields? ["array", "index"] | none
      return .element (← Json.required Handle.ofJson? array) (← Json.required Json.word? index)
  | "constant" => do
      let [] ← fields.fields? [] | none
      return .constant
  | "level" => do
      let [level] ← fields.fields? ["level"] | none
      return .literal (← Json.required (JsonLevel.ofJson? true) level)
  | _ => none

def ofJson? (json : Json) : Option (Operand L) := do
  let (kind, fields) ← json.tagged?
  ofFields? (← kind? kind) fields

/-- A list of operands. -/
def listToJson (operands : List (Operand L)) : Json := .array (operands.map toJson)

/-- A list of operands that may be left out when it is empty. -/
def listOfField? : Option Json → Option (List (Operand L)) :=
  Json.defaulted [] (Json.list? ofJson?)

end Operand

/-! ## Operations -/

namespace TraceOp

def toJson : TraceOp L → Json
  | .action (.declare name) => .variant "declare_local" [("name", .text name)]
  | .action (.write name operands) =>
      .variant "write_local" [("name", .text name), ("operands", Operand.listToJson operands)]
  | .action (.writeField object field operands) =>
      .variant "write_field"
        [("object", object.toJson), ("field", .text field), ("operands", Operand.listToJson operands)]
  | .action (.writeElement array index operands) =>
      .variant "write_array_slot"
        [("array", array.toJson), ("index", .word index), ("operands", Operand.listToJson operands)]
  | .action (.enter tag condition) =>
      .variant "enter_branch" [("tag", tag.toJson), ("condition", Operand.listToJson condition)]
  | .action (.exit tag) => .variant "exit_branch" [("tag", tag.toJson)]
  | .action (.checkBelowTop name) => .variant "check_not_top" [("name", .text name)]
  | .action (.checkSink name sink) =>
      .variant "check_flows_to" [("name", .text name), ("sink", JsonLevel.toJson sink)]
  | .action (.trackObject object) => .variant "register_object" [("object", object.toJson)]
  | .action (.trackField object field) =>
      .variant "register_object_field" [("object", object.toJson), ("field", .text field)]
  | .action (.trackArray array length) =>
      .variant "register_array" [("array", array.toJson), ("length", .word length)]
  | .action (.label name level) =>
      .variant "assert_local_level" [("name", .text name), ("level", JsonLevel.toJson level)]
  | .action (.labelField object field level) =>
      .variant "assert_field_level"
        [("object", object.toJson), ("field", .text field), ("level", JsonLevel.toJson level)]
  | .call callee arguments =>
      .variant "call" [("callee", .text callee), ("arguments", Operand.listToJson arguments)]
  | .action (.bindArgument position name) =>
      .variant "assign_argument" [("position", .word position), ("name", .text name)]
  | .action (.returnLocal name) => .variant "return_local" [("name", .text name)]
  | .action .returnConstant => .variant "return_constant" []
  | .close => .variant "close" []
  | .takeReturn callee name =>
      .variant "assign_return" [("callee", .text callee), ("name", .text name)]

/-- The operation of a kind with these fields. -/
def ofFields? (kind : String) (fields : Json) : Option (TraceOp L) :=
  match kind with
  | "declare_local" => do
      let [name] ← fields.fields? ["name"] | none
      return .action (.declare (← Json.required Json.text? name))
  | "write_local" => do
      let [name, operands] ← fields.fields? ["name", "operands"] | none
      return .action
        (.write (← Json.required Json.text? name) (← Operand.listOfField? operands))
  | "write_field" => do
      let [object, field, operands] ← fields.fields? ["object", "field", "operands"] | none
      return .action
        (.writeField (← Json.required Handle.ofJson? object) (← Json.required Json.text? field)
          (← Operand.listOfField? operands))
  | "write_array_slot" => do
      let [array, index, operands] ← fields.fields? ["array", "index", "operands"] | none
      return .action
        (.writeElement (← Json.required Handle.ofJson? array)
          (← Json.required Json.word? index) (← Operand.listOfField? operands))
  | "enter_branch" => do
      let [tag, condition] ← fields.fields? ["tag", "condition"] | none
      return .action
        (.enter (← Json.required Tag.ofJson? tag) (← Operand.listOfField? condition))
  | "exit_branch" => do
      let [tag] ← fields.fields? ["tag"] | none
      return .action (.exit (← Json.required Tag.ofJson? tag))
  | "check_not_top" => do
      let [name] ← fields.fields? ["name"] | none
      return .action (.checkBelowTop (← Json.required Json.text? name))
  | "check_flows_to" => do
      let [name, sink] ← fields.fields? ["name", "sink"] | none
      return .action
        (.checkSink (← Json.required Json.text? name)
          (← Json.required (JsonLevel.ofJson? true) sink))
  | "register_object" => do
      let [object] ← fields.fields? ["object"] | none
      return .action (.trackObject (← Json.required Handle.ofJson? object))
  | "register_object_field" => do
      let [object, field] ← fields.fields? ["object", "field"] | none
      return .action
        (.trackField (← Json.required Handle.ofJson? object)
          (← Json.required Json.text? field))
  | "register_array" => do
      let [array, length] ← fields.fields? ["array", "length"] | none
      return .action
        (.trackArray (← Json.required Handle.ofJson? array)
          (← Json.required Json.word? length))
  | "assert_local_level" => do
      let [name, level] ← fields.fields? ["name", "level"] | none
      return .action
        (.label (← Json.required Json.text? name)
          (← Json.required (JsonLevel.ofJson? true) level))
  | "assert_field_level" => do
      let [object, field, level] ← fields.fields? ["object", "field", "level"] | none
      return .action
        (.labelField (← Json.required Handle.ofJson? object) (← Json.required Json.text? field)
          (← Json.required (JsonLevel.ofJson? true) level))
  | "call" => do
      let [callee, arguments] ← fields.fields? ["callee", "arguments"] | none
      return .call (← Json.required Json.text? callee) (← Operand.listOfField? arguments)
  | "assign_argument" => do
      let [position, name] ← fields.fields? ["position", "name"] | none
      return .action
        (.bindArgument (← Json.required Json.word? position) (← Json.required Json.text? name))
  | "return_local" => do
      let [name] ← fields.fields? ["name"] | none
      return .action (.returnLocal (← Json.required Json.text? name))
  | "return_constant" => do
      let [] ← fields.fields? [] | none
      return .action .returnConstant
  | "close" => do
      let [] ← fields.fields? [] | none
      return .close
  | "assign_return" => do
      let [callee, name] ← fields.fields? ["callee", "name"] | none
      return .takeReturn (← Json.required Json.text? callee) (← Json.required Json.text? name)
  | _ => none

/-- How deeply arrays and objects of an operation may nest. -/
def nesting : Nat := 124

def ofJson? (json : Json) : Option (TraceOp L) :=
  if json.isKeepable nesting then do
    let (kind, fields) ← json.tagged?
    ofFields? (← kind.text?) fields
  else none

end TraceOp

/-! ## Steps and traces -/

namespace Step

def toJson (step : Step L) : Json :=
  .record [("frame", .text step.frame), ("op", step.op.toJson)]

def ofJson? (json : Json) : Option (Step L) := do
  let [frame, op] ← json.fields? ["frame", "op"] | none
  return ⟨← Json.required Json.text? frame, ← Json.required TraceOp.ofJson? op⟩

end Step

namespace Trace

def toJson (trace : Trace L) : Json :=
  .record
    [("description", .text trace.description), ("steps", .array (trace.steps.map Step.toJson))]

def ofJson? (json : Json) : Option (Trace L) := do
  let [description, steps] ← json.fields? ["description", "steps"] | none
  return ⟨← Json.defaulted "" Json.text? description,
    ← Json.required (Json.list? Step.ofJson?) steps⟩

/-- The trace that a text writes. -/
def read? (text : String) : Option (Trace L) := do
  ofJson? (← Json.read? text)

/-- The text of a trace, in one line. -/
def text (trace : Trace L) : String := trace.toJson.compact

end Trace

end InfoFlow
