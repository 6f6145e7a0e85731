import InfoFlow.Name

/-!
# What a monitor operation can fail with

Failures fall in two classes. A *violation* is a flow of information that the
policy forbids: a public variable assigned under a secret condition, or a
value too secret for the sink it reaches. All other failures are *internal*:
the instrumentation used the monitor wrongly. The wording of every failure is
given by `message`.
-/

namespace InfoFlow

/-- A place that carries a security level. An array slot is named by the text
of its index. -/
inductive Place where
  | local (name : String)
  | field (object : Handle) (name : String)
  | element (array : Handle) (index : String)
  | record (object : Handle)
deriving DecidableEq, Repr

def Place.text : Place → String
  | .local name => s!"local '{name}'"
  | .field object name => s!"field {object.text}.{name}"
  | .element array index => s!"array slot {array.text}[{index}]"
  | .record object => s!"record {object.text}"

/-- Why a flow is illegal; levels are kept by their names. -/
inductive FlowReason where
  /-- A local that existed before a secret branch would be raised inside it. -/
  | sensitiveUpgrade (required current pc : String)
  /-- A value at `level` would reach a sink that admits levels up to `bound`. -/
  | aboveBound (level bound : String)
deriving DecidableEq, Repr

def FlowReason.text : FlowReason → String
  | .sensitiveUpgrade required current pc =>
      s!"sensitive upgrade from {current} to {required} under pc {pc}"
  | .aboveBound level bound => s!"level {level} exceeds sink bound {bound}"

/-- The ways in which a monitor operation fails. -/
inductive Fault where
  | illegalFlow (target : Place) (reason : FlowReason)
  | unregistered (slot : Place)
  | wrongExit (expected : Option Tag) (found : Tag)
  | tooDeep (limit : UInt64)
  | unbalanced (frame : String) (openScopes : Nat)
  | missingArgument (position : UInt64) (available : Nat)
deriving DecidableEq, Repr

namespace Fault

/-- The innermost open scope as a mismatch names it. -/
def describeScope : Option Tag → String
  | some tag => s!"'{tag.text}'"
  | none => "<none>"

def message : Fault → String
  | illegalFlow target reason => s!"Illegal flow to {target.text}: {reason.text}"
  | unregistered slot => s!"Unknown slot: {slot.text} was never registered"
  | wrongExit expected found =>
      s!"Scope mismatch: exit of '{found.text}' but innermost open scope is {describeScope expected}"
  | tooDeep limit => s!"Scope overflow - maximum nesting depth ({limit.toNat}) exceeded"
  | unbalanced frame openScopes =>
      s!"Frame '{frame}' closed with {openScopes} open scope(s)"
  | missingArgument position available =>
      s!"Missing argument at position {position.toNat} ({available} passed)"

/-- The word for the kind of failure. -/
def kind : Fault → String
  | illegalFlow .. => "IllegalFlow"
  | unregistered _ => "UnknownSlot"
  | wrongExit .. => "ScopeMismatch"
  | tooDeep _ => "ScopeOverflow"
  | unbalanced .. => "UnbalancedFrame"
  | missingArgument .. => "MissingArgument"

/-- Whether the failure is a forbidden flow. -/
def isViolation : Fault → Bool
  | illegalFlow .. => true
  | _ => false

/-- Whether the failure is a misuse of the monitor. -/
def isInternal (e : Fault) : Bool := !e.isViolation

end Fault

end InfoFlow
