import InfoFlow.Heap
import InfoFlow.Locals
import InfoFlow.Policy
import InfoFlow.Outcome
import InfoFlow.ProgramCounter

/-!
# The monitor of one frame

A session follows one activation of a frame: its locals, its program counter,
the arguments it was called with and the level of what it returns. The heap is
shared between sessions, so operations on it take the heap and give it back.

The rules of the monitor:

* *Locals — no sensitive upgrade.* A local that existed before the current
  branch on a secret must not be raised inside it, because whether it was
  raised already tells the secret. It counts as existing before when the
  current program counter does not flow to the one it was declared under.
* *Heap — permissive upgrade.* A field or array slot takes the join of the
  value's level and the program counter, and the write always succeeds.
* *Sinks.* A value above the bound of the sink is refused.
-/

namespace InfoFlow

open Level (join)

/-- The monitor state of one activation of a frame. -/
structure Session (L : Type) where
  frame : String
  locals : Locals L
  pc : ProgramCounter L
  policy : Policy
  /-- The levels of the arguments, each raised to the caller's program counter. -/
  arguments : List L
  returned : Option L

namespace Session

variable {L : Type} [Level L]

/-! ## Opening -/

/-- A session that has done nothing yet. -/
def start (frame : String) (policy : Policy) (base : L) (arguments : List L) : Session L where
  frame
  locals := .empty
  pc := .start base policy.maxDepth
  policy
  arguments
  returned := none

/-- The name of a root frame that is given no other. -/
def rootFrame : String := "main"

/-- The session of a frame that nothing monitored has called. -/
def root (policy : Policy) : Session L := start rootFrame policy Level.bottom []

/-- The same session under another frame name. -/
def named (s : Session L) (frame : String) : Session L := { s with frame }

/-- The session of a frame called from here: its program counter and its
arguments are raised to the program counter of the call. -/
def call (s : Session L) (callee : String) (arguments : List L) : Session L :=
  start callee s.policy s.pc.level (arguments.map (join · s.pc.level))

/-! ## The journal -/

/-- The note on opening a session that has done nothing yet. -/
def openingNote (s : Session L) : Note :=
  .line ⟨.debug, none,
    s!"Opening frame '{s.frame}' with pc base {Level.text s.pc.base} and {s.arguments.length} argument(s)"⟩

/-- A line of the log about this frame. -/
def say (s : Session L) (severity : Severity) (message : String) : Note :=
  .line ⟨severity, some s.frame, message⟩

/-- Refuse a flow: the failure, a warning and a tick of the counter. -/
def refuse {σ α : Type} (s : Session L) (state : σ) (target : Place) (reason : FlowReason) :
    Outcome Fault σ α where
  result := .error (.illegalFlow target reason)
  state
  journal := [s.say .warn s!"Illegal flow to {target.text}: {reason.text}", .tick .illegalFlows]

/-! ## Locals -/

/-- Declare a local at `bottom`. Declaring it again changes nothing. -/
def declare (s : Session L) (name : String) : Outcome Fault (Session L) Unit :=
  if s.locals.contains name then .ok s ()
  else
    .noted { s with locals := s.locals.declare name s.pc.level } ()
      [s.say .debug s!"Declared local '{name}' under pc {Level.text s.pc.level}"]

/-- The level of a local. -/
def read (s : Session L) (name : String) : Outcome Fault Unit L :=
  match s.locals.level name with
  | .error e => .fail () e
  | .ok level => .noted () level [s.say .trace s!"Read local '{name}' at {Level.text level}"]

/-- Whether a local existed before the current branch on a secret. -/
def PreExisting (s : Session L) (slot : LocalLabel L) : Prop := ¬ s.pc.level ≤ slot.declaredUnder

instance (s : Session L) (slot : LocalLabel L) : Decidable (s.PreExisting slot) :=
  inferInstanceAs (Decidable (¬ _))

/-- Assign a value at level `operand` to a declared local. The local takes the
join of that level and the program counter, which is the answer. -/
def write (s : Session L) (name : String) (operand : L) : Outcome Fault (Session L) L :=
  let pc := s.pc.level
  let required := join operand pc
  match s.locals.slot name with
  | .error e => .fail s e
  | .ok slot =>
      if s.PreExisting slot ∧ ¬ required ≤ slot.level then
        s.refuse s (.local name)
          (.sensitiveUpgrade (Level.text required) (Level.text slot.level) (Level.text pc))
      else
        .noted { s with locals := s.locals.put name { slot with level := required } } required
          [s.say .trace s!"Local '{name}' := {Level.text required} (was {Level.text slot.level})"]

/-- Label a declared local without any check: a source, or a declassification. -/
def label (s : Session L) (name : String) (level : L) : Outcome Fault (Session L) Unit :=
  match s.locals.slot name with
  | .error e => .fail s e
  | .ok slot =>
      .noted { s with locals := s.locals.put name { slot with level } } ()
        [s.say .debug s!"Local '{name}' labelled {Level.text level} (was {Level.text slot.level})"]

/-! ## Heap -/

/-- Track an object. -/
def trackObject (s : Session L) (heap : Heap L) (id : Handle) :
    Outcome Fault (Heap L) Unit :=
  if heap.contains id then .ok heap ()
  else .noted (heap.trackObject id) () [s.say .debug s!"Registered object {id.text}"]

/-- Register a field. -/
def trackField (heap : Heap L) (id : Handle) (field : String) :
    Outcome Fault (Heap L) Unit :=
  .ok (heap.trackField id field) ()

/-- Track an array of `length` elements. -/
def trackArray (s : Session L) (heap : Heap L) (id : Handle) (length : UInt64) :
    Outcome Fault (Heap L) Unit :=
  .noted (heap.trackArray id length) ()
    [s.say .debug s!"Registered array {id.text} with {length.toNat} slot(s)"]

/-- Track a new object under a fresh handle. -/
def newObject (s : Session L) (heap : Heap L) : Outcome Fault (Heap L) Handle :=
  let (id, heap) := heap.allocate .object
  .noted heap id [s.say .debug s!"Allocated object {id.text}"]

/-- Track a new array of `length` elements under a fresh handle. -/
def newArray (heap : Heap L) (length : UInt64) : Outcome Fault (Heap L) Handle :=
  let (id, heap) := heap.allocate .array
  .ok (heap.trackArray id length) id

/-- The level of a field. -/
def readField (s : Session L) (heap : Heap L) (id : Handle) (field : String) :
    Outcome Fault Unit L :=
  match heap.fieldLevel id field with
  | .error e => .fail () e
  | .ok level =>
      .noted () level [s.say .trace s!"Read field {id.text}.{field} at {Level.text level}"]

/-- The level of an array element. -/
def readElement (s : Session L) (heap : Heap L) (id : Handle) (index : UInt64) :
    Outcome Fault Unit L :=
  match heap.elementLevel id index with
  | .error e => .fail () e
  | .ok level =>
      .noted () level
        [s.say .trace s!"Read array slot {id.text}[{index.toNat}] at {Level.text level}"]

/-- The heap with a field registered, if the configuration asks for it. -/
def withField (s : Session L) (heap : Heap L) (id : Handle) (field : String) : Heap L :=
  if s.policy.autoRegister then heap.trackField id field else heap

/-- The heap with an array element registered, if the configuration asks for it. -/
def withElement (s : Session L) (heap : Heap L) (id : Handle) (index : UInt64) : Heap L :=
  if s.policy.autoRegister then heap.trackElement id index else heap

/-- Assign a value at level `operand` to a field. The field takes the join of
that level and the program counter, which is the answer. -/
def writeField (s : Session L) (heap : Heap L) (id : Handle) (field : String) (operand : L) :
    Outcome Fault (Heap L) L :=
  let required := join operand s.pc.level
  let heap := s.withField heap id field
  match heap.setField id field required with
  | .error e => .fail heap e
  | .ok (previous, heap) =>
      .noted heap required
        [s.say .trace
          s!"Field {id.text}.{field} := {Level.text required} (was {Level.text previous})"]

/-- Assign a value at level `operand` to an array element, by the rule for
fields. -/
def writeElement (s : Session L) (heap : Heap L) (id : Handle) (index : UInt64) (operand : L) :
    Outcome Fault (Heap L) L :=
  let required := join operand s.pc.level
  let heap := s.withElement heap id index
  match heap.setElement id index required with
  | .error e => .fail heap e
  | .ok (previous, heap) =>
      .noted heap required
        [s.say .trace
          s!"Array slot {id.text}[{index.toNat}] := {Level.text required} (was {Level.text previous})"]

/-- Label a field without any check. -/
def labelField (s : Session L) (heap : Heap L) (id : Handle) (field : String) (level : L) :
    Outcome Fault (Heap L) Unit :=
  let heap := s.withField heap id field
  match heap.setField id field level with
  | .error e => .fail heap e
  | .ok (_, heap) =>
      .noted heap () [s.say .debug s!"Field {id.text}.{field} labelled {Level.text level}"]

/-! ## Branches -/

/-- Enter a branch whose condition reads values at these levels. The answer is
the program counter inside it. -/
def enter (s : Session L) (tag : Tag) (condition : List L) :
    Outcome Fault (Session L) L :=
  let level := join (Level.joinAll condition) s.pc.level
  match s.pc.enter level tag with
  | .error e => .fail s e
  | .ok pc =>
      .noted { s with pc } pc.level
        [s.say .debug s!"Entered scope '{tag.text}' at {Level.text level} (depth {pc.depth})"]

/-- The levels of these locals, read one after the other. -/
def readAll (s : Session L) : List String → Outcome Fault Unit (List L)
  | [] => .ok () []
  | name :: names =>
      (s.read name).andThen fun level _ => (s.readAll names).map (level :: ·)

/-- Enter a branch whose condition reads these locals. -/
def enterOn (s : Session L) (tag : Tag) (names : List String) :
    Outcome Fault (Session L) L :=
  ((s.readAll names).mapState fun _ => s).andThen fun levels s => s.enter tag levels

/-- Leave the innermost branch. The answer is the program counter after it. -/
def exit (s : Session L) (tag : Tag) : Outcome Fault (Session L) L :=
  match s.pc.leave tag with
  | .error e => ⟨.error e, s, [.tick .wrongExits]⟩
  | .ok pc =>
      .noted { s with pc } pc.level
        [s.say .debug s!"Exited scope '{tag.text}', pc back to {Level.text pc.level}"]

/-! ## Sinks -/

/-- Refuse a local at `top`. -/
def checkBelowTop (s : Session L) (name : String) : Outcome Fault (Session L) Unit :=
  match s.locals.level name with
  | .error e => .fail s e
  | .ok level =>
      if level = Level.top then
        s.refuse s (.local name) (.aboveBound (Level.text level) "below top")
      else .ok s ()

/-- Refuse a local whose level does not flow to `sink`. -/
def checkSink (s : Session L) (name : String) (sink : L) : Outcome Fault (Session L) Unit :=
  match s.locals.level name with
  | .error e => .fail s e
  | .ok level =>
      if level ≤ sink then .ok s ()
      else s.refuse s (.local name) (.aboveBound (Level.text level) (Level.text sink))

/-! ## Calls -/

/-- Bind the argument at `position` to a local, declaring it if need be. The
answer is the level of the argument. -/
def bindArgument (s : Session L) (position : UInt64) (name : String) :
    Outcome Fault (Session L) L :=
  match s.arguments[position.toNat]? with
  | none => .fail s (.missingArgument position s.arguments.length)
  | some level =>
      (s.declare name).andThen fun _ s =>
        match s.locals.slot name with
        | .error e => .fail s e
        | .ok slot =>
            .noted { s with locals := s.locals.put name { slot with level } } level
              [s.say .debug
                s!"Argument {position.toNat} bound to '{name}' at {Level.text level}"]

/-- Return the value of a local, raised to the program counter. -/
def returnLocal (s : Session L) (name : String) : Outcome Fault (Session L) L :=
  match s.locals.level name with
  | .error e => .fail s e
  | .ok level =>
      let level := join level s.pc.level
      .ok { s with returned := some level } level

/-- Return a constant; its level is the program counter. -/
def returnConstant (s : Session L) : Outcome Fault (Session L) L :=
  .ok { s with returned := some s.pc.level } s.pc.level

/-- Whether the frame may close now. -/
def checkClose (s : Session L) : Except Fault Unit :=
  if s.policy.balancedClose && !s.pc.isEmpty then
    .error (.unbalanced s.frame s.pc.depth)
  else .ok ()

/-- End the frame. The answer is the level of what it returned, if anything. -/
def close (s : Session L) : Outcome Fault Unit (Option L) :=
  match s.checkClose with
  | .error e => .fail () e
  | .ok () =>
      .noted () s.returned
        [.line ⟨.debug, none, s!"Closing frame '{s.frame}' ({s.locals.size} local(s))"⟩]

end Session

end InfoFlow
