import InfoFlow.Session

/-!
# The operations of a session

Everything that a frame can ask of its monitor while it is open, as data. An
operation acts on a session and the heap it shares.
-/

namespace InfoFlow

/-- A request to an open session. -/
inductive Operation (L : Type) where
  | declare (name : String)
  | read (name : String)
  | write (name : String) (operand : L)
  | label (name : String) (level : L)
  | trackObject (id : Handle)
  | trackField (id : Handle) (field : String)
  | trackArray (id : Handle) (length : UInt64)
  | newObject
  | newArray (length : UInt64)
  | readField (id : Handle) (field : String)
  | readElement (id : Handle) (index : UInt64)
  | writeField (id : Handle) (field : String) (operand : L)
  | writeElement (id : Handle) (index : UInt64) (operand : L)
  | labelField (id : Handle) (field : String) (level : L)
  | enter (tag : Tag) (condition : List L)
  | enterOn (tag : Tag) (names : List String)
  | exit (tag : Tag)
  | checkBelowTop (name : String)
  | checkSink (name : String) (sink : L)
  | bindArgument (position : UInt64) (name : String)
  | returnLocal (name : String)
  | returnConstant
  | checkClose
deriving DecidableEq, Repr

/-- What an operation answers. -/
inductive Reply (L : Type) where
  | done
  | level (level : L)
  | handle (id : Handle)
deriving DecidableEq, Repr

namespace Operation

variable {L : Type}

/-- An operation that changes the session alone. -/
def onSession {α : Type} (heap : Heap L) (reply : α → Reply L) (o : Outcome Fault (Session L) α) :
    Outcome Fault (Session L × Heap L) (Reply L) :=
  (o.mapState (·, heap)).map reply

/-- An operation that changes the heap alone. -/
def onHeap {α : Type} (s : Session L) (reply : α → Reply L) (o : Outcome Fault (Heap L) α) :
    Outcome Fault (Session L × Heap L) (Reply L) :=
  (o.mapState (s, ·)).map reply

/-- An operation that changes nothing. -/
def reading (s : Session L) (heap : Heap L) (o : Outcome Fault Unit L) :
    Outcome Fault (Session L × Heap L) (Reply L) :=
  (o.mapState fun _ => (s, heap)).map .level

/-- The answer of an operation that has nothing to say. -/
def noReply (_ : Unit) : Reply L := .done

variable [Level L]

/-- Carry out an operation of session `s` on `heap`. -/
def perform (op : Operation L) (s : Session L) (heap : Heap L) :
    Outcome Fault (Session L × Heap L) (Reply L) :=
  match op with
  | declare name => onSession heap noReply (s.declare name)
  | read name => reading s heap (s.read name)
  | write name operand => onSession heap .level (s.write name operand)
  | label name level => onSession heap noReply (s.label name level)
  | trackObject id => onHeap s noReply (s.trackObject heap id)
  | trackField id field => onHeap s noReply (Session.trackField heap id field)
  | trackArray id length => onHeap s noReply (s.trackArray heap id length)
  | newObject => onHeap s .handle (s.newObject heap)
  | newArray length => onHeap s .handle (Session.newArray heap length)
  | readField id field => reading s heap (s.readField heap id field)
  | readElement id index => reading s heap (s.readElement heap id index)
  | writeField id field operand => onHeap s .level (s.writeField heap id field operand)
  | writeElement id index operand => onHeap s .level (s.writeElement heap id index operand)
  | labelField id field level => onHeap s noReply (s.labelField heap id field level)
  | enter tag condition => onSession heap .level (s.enter tag condition)
  | enterOn tag names => onSession heap .level (s.enterOn tag names)
  | exit tag => onSession heap .level (s.exit tag)
  | checkBelowTop name => onSession heap noReply (s.checkBelowTop name)
  | checkSink name sink => onSession heap noReply (s.checkSink name sink)
  | bindArgument position name => onSession heap .level (s.bindArgument position name)
  | returnLocal name => onSession heap .level (s.returnLocal name)
  | returnConstant => onSession heap .level s.returnConstant
  | checkClose => .ofExcept (s, heap) (s.checkClose.map noReply)

end Operation

end InfoFlow
