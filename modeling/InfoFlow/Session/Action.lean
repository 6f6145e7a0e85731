import InfoFlow.Session.Operation
import InfoFlow.Trace

/-!
# Actions on a session

An action of a trace is carried out in two steps: the level of its operands is
read through the session, then the session does what the action asks for.
-/

namespace InfoFlow

open Level (join bottom)

namespace Session

variable {L : Type} [Level L]

/-- The level of an operand. -/
def readOperand (s : Session L) (heap : Heap L) : Operand L → Outcome Fault Unit L
  | .local name => s.read name
  | .field object name => s.readField heap object name
  | .element array index => s.readElement heap array index
  | .constant => .ok () bottom
  | .literal level => .ok () level

/-- The join of `level` and the levels of these operands, read one after the
other. -/
def joinOperands (s : Session L) (heap : Heap L) (level : L) :
    List (Operand L) → Outcome Fault Unit L
  | [] => .ok () level
  | operand :: operands =>
      (s.readOperand heap operand).andThen fun read _ =>
        s.joinOperands heap (join level read) operands

/-- The level of a value computed from these operands. -/
def operandLevel (s : Session L) (heap : Heap L) (operands : List (Operand L)) :
    Outcome Fault Unit L :=
  s.joinOperands heap bottom operands

/-- The levels of the arguments of a call. -/
def argumentLevels (s : Session L) (heap : Heap L) :
    List (Operand L) → Outcome Fault Unit (List L)
  | [] => .ok () []
  | argument :: arguments =>
      (s.operandLevel heap [argument]).andThen fun level _ =>
        (s.argumentLevels heap arguments).map (level :: ·)

end Session

namespace Action

variable {L : Type} [Level L]

/-- The operands whose level an action uses. -/
def operands : Action L → List (Operand L)
  | write _ operands => operands
  | writeField _ _ operands => operands
  | writeElement _ _ operands => operands
  | enter _ condition => condition
  | _ => []

/-- The operation that an action asks for, given the level of its operands. -/
def operation (level : L) : Action L → Operation L
  | declare name => .declare name
  | write name _ => .write name level
  | writeField object field _ => .writeField object field level
  | writeElement array index _ => .writeElement array index level
  | enter tag _ => .enter tag [level]
  | exit tag => .exit tag
  | checkBelowTop name => .checkBelowTop name
  | checkSink name sink => .checkSink name sink
  | trackObject object => .trackObject object
  | trackField object field => .trackField object field
  | trackArray array length => .trackArray array length
  | label name level => .label name level
  | labelField object field level => .labelField object field level
  | bindArgument position name => .bindArgument position name
  | returnLocal name => .returnLocal name
  | returnConstant => .returnConstant

/-- Carry out an action of session `s` on `heap`: read its operands, then do
what it asks for. -/
def perform (action : Action L) (s : Session L) (heap : Heap L) :
    Outcome Fault (Session L × Heap L) (Reply L) :=
  ((s.operandLevel heap action.operands).mapState fun _ => (s, heap)).andThen
    fun level (s, heap) => (action.operation level).perform s heap

end Action

end InfoFlow
