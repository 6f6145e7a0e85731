import InfoFlow.Name

/-!
# Recorded runs

A trace is the record of what the frames of an instrumented program asked of
their monitors, one step after the other. Where an operation needs the level
of a value, the record names the operands that the value was computed from.
-/

namespace InfoFlow

/-- Something a value was computed from. -/
inductive Operand (L : Type) where
  | local (name : String)
  | field (object : Handle) (name : String)
  | element (array : Handle) (index : UInt64)
  | constant
  | literal (level : L)
deriving DecidableEq, Repr

/-- What a frame did to its own locals and scopes and to the heap. -/
inductive Action (L : Type) where
  | declare (name : String)
  | write (name : String) (operands : List (Operand L))
  | writeField (object : Handle) (field : String) (operands : List (Operand L))
  | writeElement (array : Handle) (index : UInt64) (operands : List (Operand L))
  | enter (tag : Tag) (condition : List (Operand L))
  | exit (tag : Tag)
  | checkBelowTop (name : String)
  | checkSink (name : String) (sink : L)
  | trackObject (object : Handle)
  | trackField (object : Handle) (field : String)
  | trackArray (array : Handle) (length : UInt64)
  | label (name : String) (level : L)
  | labelField (object : Handle) (field : String) (level : L)
  | bindArgument (position : UInt64) (name : String)
  | returnLocal (name : String)
  | returnConstant
deriving DecidableEq, Repr

/-- What a step of a trace does: an action of its frame, or a step in the life
of frames. -/
inductive TraceOp (L : Type) where
  | action (action : Action L)
  /-- Open frame `callee`; each argument is a single operand of the caller. -/
  | call (callee : String) (arguments : List (Operand L))
  /-- Close the frame. -/
  | close
  /-- Assign what the closed frame `callee` returned to a local. -/
  | takeReturn (callee name : String)
deriving DecidableEq, Repr

/-- An operation and the frame that asked for it. -/
structure Step (L : Type) where
  frame : String
  op : TraceOp L
deriving DecidableEq, Repr

structure Trace (L : Type) where
  description : String
  steps : List (Step L)
deriving DecidableEq, Repr

end InfoFlow
