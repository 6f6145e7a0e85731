import InfoFlow.Proofs.Level.Hom
import InfoFlow.Proofs.Session.Reading

/-!
# A session under a map of levels

Everything that carries levels can be taken from one set of levels to another,
level by level: the state of a session, the heap, operations and their answers. A
homomorphism of levels commutes with whatever the monitor computes, so an
operation that succeeds on the one side succeeds on the other and leaves the image
(`Succeeds.image`). Only the check against the greatest level needs more. An
embedding also keeps the faults, with the wording (`Fails.image`).
-/

namespace InfoFlow

open Std (ExtTreeMap)
open Level (join bottom joinAll)

variable {L M : Type}

/-! ## §1  Images -/

def LocalLabel.map (f : L → M) (slot : LocalLabel L) : LocalLabel M :=
  ⟨f slot.level, f slot.declaredUnder⟩

def Locals.map (f : L → M) (locals : Locals L) : Locals M :=
  ⟨locals.slots.map fun _ slot => slot.map f⟩

def Scope.map (f : L → M) (scope : Scope L) : Scope M :=
  ⟨scope.tag, f scope.condition, f scope.inside⟩

def ProgramCounter.map (f : L → M) (pc : ProgramCounter L) : ProgramCounter M :=
  ⟨pc.scopes.map (Scope.map f), f pc.base, pc.maxDepth⟩

def Session.map (f : L → M) (s : Session L) : Session M where
  frame := s.frame
  locals := s.locals.map f
  pc := s.pc.map f
  policy := s.policy
  arguments := s.arguments.map f
  returned := s.returned.map f

def Record.map (f : L → M) (record : Record L) : Record M :=
  ⟨record.kind, record.slots.map fun _ level => f level⟩

def Heap.map (f : L → M) (heap : Heap L) : Heap M :=
  ⟨heap.records.map fun _ record => record.map f, heap.nextHandle⟩

def Operand.map (f : L → M) : Operand L → Operand M
  | .local name => .local name
  | field object name => field object name
  | element array index => element array index
  | constant => constant
  | literal level => literal (f level)

def Operation.map (f : L → M) : Operation L → Operation M
  | declare name => declare name
  | read name => read name
  | write name operand => write name (f operand)
  | label name level => label name (f level)
  | trackObject id => trackObject id
  | trackField id field => trackField id field
  | trackArray id length => trackArray id length
  | newObject => newObject
  | newArray length => newArray length
  | readField id field => readField id field
  | readElement id index => readElement id index
  | writeField id field operand => writeField id field (f operand)
  | writeElement id index operand => writeElement id index (f operand)
  | labelField id field level => labelField id field (f level)
  | enter tag condition => enter tag (condition.map f)
  | enterOn tag names => enterOn tag names
  | exit tag => exit tag
  | checkBelowTop name => checkBelowTop name
  | checkSink name sink => checkSink name (f sink)
  | bindArgument position name => bindArgument position name
  | returnLocal name => returnLocal name
  | returnConstant => returnConstant
  | checkClose => checkClose

def Reply.map (f : L → M) : Reply L → Reply M
  | done => done
  | level answer => level (f answer)
  | handle id => handle id

/-! ## §2  Locals and the program counter -/

section Locals

variable {f : L → M} {locals : Locals L} {name : String}

theorem Locals.find?_map (f : L → M) (locals : Locals L) (name : String) :
    (locals.map f).find? name = (locals.find? name).map (LocalLabel.map f) :=
  ExtTreeMap.getElem?_map

theorem Locals.find?_map_of_some {slot : LocalLabel L} (h : locals.find? name = some slot) :
    (locals.map f).find? name = some (slot.map f) := by
  rw [Locals.find?_map, h, Option.map_some]

theorem Locals.find?_map_of_none (h : locals.find? name = none) :
    (locals.map f).find? name = none := by
  rw [Locals.find?_map, h, Option.map_none]

theorem LocalLabel.map_withLevel (f : L → M) (slot : LocalLabel L) (level : L) :
    ({ slot with level } : LocalLabel L).map f = { slot.map f with level := f level } :=
  rfl

theorem Locals.put_map (f : L → M) (locals : Locals L) (name : String) (slot : LocalLabel L) :
    (locals.put name slot).map f = (locals.map f).put name (slot.map f) :=
  congrArg Locals.mk (FiniteMap.map_insert (LocalLabel.map f) locals.slots name slot)

theorem Locals.level_map (f : L → M) (locals : Locals L) (name : String) :
    (locals.map f).level name = (locals.level name).map f := by
  cases hfound : locals.find? name with
  | none => rw [Locals.level_of_none hfound, Locals.level_of_none (find?_map_of_none hfound)]; rfl
  | some slot =>
      rw [Locals.level_eq_ok.2 ⟨slot, hfound, rfl⟩,
        Locals.level_eq_ok.2 ⟨slot.map f, find?_map_of_some hfound, rfl⟩]
      rfl

theorem ProgramCounter.level_map (f : L → M) (pc : ProgramCounter L) :
    (pc.map f).level = f pc.level := by
  unfold ProgramCounter.level ProgramCounter.map
  cases pc.scopes <;> rfl

theorem ProgramCounter.limitReached?_map (f : L → M) (pc : ProgramCounter L) :
    (pc.map f).limitReached? = pc.limitReached? := by
  unfold limitReached? depth ProgramCounter.map
  rw [List.length_map]

theorem ProgramCounter.leave_map (f : L → M) (pc : ProgramCounter L) (tag : Tag) :
    (pc.map f).leave tag = (pc.leave tag).map (ProgramCounter.map f) := by
  obtain ⟨scopes, base, maxDepth⟩ := pc
  cases scopes with
  | nil => rfl
  | cons scope outer =>
      by_cases htag : scope.tag = tag
      · simp only [leave, ProgramCounter.map, List.map_cons, Scope.map, if_pos htag]
        rfl
      · simp only [leave, ProgramCounter.map, List.map_cons, Scope.map, if_neg htag]
        rfl

variable [Level L] [Level M] (hf : LevelHom f)
include hf

theorem LevelHom.declare (locals : Locals L) (name : String) (declaredUnder : L) :
    (locals.declare name declaredUnder).map f =
      (locals.map f).declare name (f declaredUnder) := by
  have hcontains : (locals.map f).contains name = locals.contains name :=
    ExtTreeMap.contains_map
  unfold Locals.declare
  rw [hcontains]
  split
  · rfl
  · rw [Locals.put_map, LocalLabel.map, hf.map_bottom]

theorem LevelHom.enter {pc pc' : ProgramCounter L} {condition : L} {tag : Tag}
    (h : pc.enter condition tag = .ok pc') :
    (pc.map f).enter (f condition) tag = .ok (pc'.map f) := by
  obtain ⟨hlimit, rfl⟩ := ProgramCounter.enter_eq_ok.1 h
  refine ProgramCounter.enter_eq_ok.2 ⟨?_, ?_⟩
  · rw [ProgramCounter.limitReached?_map, hlimit]
  · rw [ProgramCounter.level_map, ← hf.map_join]
    rfl

end Locals

/-! ## §3  The heap -/

section Heap

variable {f : L → M}

theorem Heap.record?_map (f : L → M) (heap : Heap L) (id : Handle) :
    (heap.map f).record? id = (heap.record? id).map (Record.map f) :=
  ExtTreeMap.getElem?_map

theorem Heap.level?_map (f : L → M) (heap : Heap L) (id : Handle) (key : String) :
    (heap.map f).level? id key = (heap.level? id key).map f := by
  unfold level?
  rw [record?_map]
  cases heap.record? id with
  | none => rfl
  | some record => exact ExtTreeMap.getElem?_map

theorem Heap.setRecord_map (f : L → M) (heap : Heap L) (id : Handle) (record : Record L) :
    (heap.setRecord id record).map f = (heap.map f).setRecord id (record.map f) := by
  unfold setRecord Heap.map
  rw [FiniteMap.map_insert]

theorem Record.map_new (f : L → M) (kind : RecordKind) :
    (Record.new kind : Record L).map f = .new kind :=
  congrArg (Record.mk kind) (FiniteMap.map_empty f)

theorem Heap.recordOrNew_map (f : L → M) (heap : Heap L) (id : Handle) (kind : RecordKind) :
    (heap.recordOrNew id kind).map f = (heap.map f).recordOrNew id kind := by
  unfold recordOrNew
  rw [record?_map]
  cases heap.record? id with
  | none => exact Record.map_new f kind
  | some record => rfl

theorem Heap.contains_map (f : L → M) (heap : Heap L) (id : Handle) :
    (heap.map f).contains id = heap.contains id :=
  ExtTreeMap.contains_map

theorem Heap.trackObject_map (f : L → M) (heap : Heap L) (id : Handle) :
    (heap.trackObject id).map f = (heap.map f).trackObject id := by
  unfold trackObject
  rw [contains_map]
  split
  · rfl
  · rw [setRecord_map, Record.map_new]

theorem Heap.freeHandle_map (f : L → M) (heap : Heap L) (tries : Nat) (handle : UInt64) :
    (heap.map f).freeHandle tries handle = heap.freeHandle tries handle := by
  induction tries generalizing handle with
  | zero => rfl
  | succ tries ih => rw [freeHandle, freeHandle, contains_map, ih]

theorem Heap.allocate_map (f : L → M) (heap : Heap L) (kind : RecordKind) :
    (heap.map f).allocate kind = ((heap.allocate kind).1, (heap.allocate kind).2.map f) := by
  have hcount : (heap.map f).recordCount = heap.recordCount := ExtTreeMap.size_map
  have hnext : (heap.map f).nextHandle = heap.nextHandle := rfl
  unfold allocate
  rw [hcount, hnext, freeHandle_map]
  dsimp only
  rw [← recordOrNew_map, ← setRecord_map]
  rfl

theorem Heap.setSlot?_map {heap heap' : Heap L} {id : Handle} {key : String} {level previous : L}
    (h : heap.setSlot? id key level = some (previous, heap')) :
    (heap.map f).setSlot? id key (f level) = some (f previous, heap'.map f) := by
  simp only [setSlot?, Option.bind_eq_bind, Option.bind_eq_some_iff, Option.pure_def,
    Option.some.injEq, Prod.mk.injEq] at h
  obtain ⟨record, hrecord, _, hslot, rfl, rfl⟩ := h
  have hslot' : (record.map f).slots[key]? = some (f _) :=
    ExtTreeMap.getElem?_map.trans (congrArg (Option.map f) hslot)
  have hput : ({ record with slots := record.slots.insert key level } : Record L).map f =
      { record.map f with slots := (record.map f).slots.insert key (f level) } :=
    congrArg (Record.mk record.kind) (FiniteMap.map_insert f record.slots key level)
  unfold setSlot?
  rw [record?_map, hrecord, setRecord_map, hput]
  simp only [Option.map_some, Option.bind_eq_bind, Option.bind_some, hslot', Option.pure_def]

variable [Level L] [Level M] (hf : LevelHom f)
include hf

theorem LevelHom.register (record : Record L) (key : String) :
    (record.register key).map f = (record.map f).register key := by
  have hcontains : (record.map f).slots.contains key = record.slots.contains key :=
    ExtTreeMap.contains_map
  unfold Record.register
  rw [hcontains]
  split
  · rfl
  · rw [Record.map, FiniteMap.map_insert, hf.map_bottom]
    rfl

theorem LevelHom.registerBelow (record : Record L) (length : Nat) :
    (record.registerBelow length).map f = (record.map f).registerBelow length := by
  unfold Record.registerBelow
  generalize List.range length = indices
  induction indices generalizing record with
  | nil => rfl
  | cons index indices ih => rw [List.foldl_cons, ih, hf.register, List.foldl_cons]

theorem LevelHom.trackField (heap : Heap L) (id : Handle) (field : String) :
    (heap.trackField id field).map f = (heap.map f).trackField id field := by
  unfold Heap.trackField
  rw [Heap.setRecord_map, hf.register, Heap.recordOrNew_map]

theorem LevelHom.trackElement (heap : Heap L) (id : Handle) (index : UInt64) :
    (heap.trackElement id index).map f = (heap.map f).trackElement id index := by
  unfold Heap.trackElement
  rw [Heap.setRecord_map, hf.register, Heap.recordOrNew_map]

theorem LevelHom.trackArray (heap : Heap L) (id : Handle) (length : UInt64) :
    (heap.trackArray id length).map f = (heap.map f).trackArray id length := by
  unfold Heap.trackArray
  rw [Heap.setRecord_map, hf.registerBelow, ← Heap.recordOrNew_map]
  rfl

theorem LevelHom.withField (s : Session L) (heap : Heap L) (id : Handle) (field : String) :
    (s.withField heap id field).map f = (s.map f).withField (heap.map f) id field := by
  unfold Session.withField
  rw [show (s.map f).policy = s.policy from rfl]
  split
  · exact hf.trackField heap id field
  · rfl

theorem LevelHom.withElement (s : Session L) (heap : Heap L) (id : Handle) (index : UInt64) :
    (s.withElement heap id index).map f = (s.map f).withElement (heap.map f) id index := by
  unfold Session.withElement
  rw [show (s.map f).policy = s.policy from rfl]
  split
  · exact hf.trackElement heap id index
  · rfl

end Heap

/-! ## §4  Sessions and what they read -/

section Reading

variable {f : L → M}

theorem Session.start_map (f : L → M) (frame : String) (policy : Policy) (base : L)
    (arguments : List L) :
    (Session.start frame policy base arguments).map f =
      .start frame policy (f base) (arguments.map f) := by
  unfold Session.start Session.map Locals.map Locals.empty
  rw [FiniteMap.map_empty]
  rfl

theorem Session.checkClose_map (f : L → M) (s : Session L) :
    (s.map f).checkClose = s.checkClose := by
  have hempty : (s.map f).pc.isEmpty = s.pc.isEmpty := List.isEmpty_map
  have hdepth : (s.map f).pc.depth = s.pc.depth := List.length_map _
  unfold checkClose
  rw [hempty, hdepth]
  rfl

variable [Level L] [Level M]

theorem Session.result_readAll_map (f : L → M) (s : Session L) (names : List String) :
    ((s.map f).readAll names).result = (s.readAll names).result.map (List.map f) := by
  induction names with
  | nil => rfl
  | cons name names ih =>
      have hfirst : (s.map f).locals.level name = (s.locals.level name).map f :=
        Locals.level_map f s.locals name
      unfold readAll
      rw [Outcome.result_andThen, Outcome.result_andThen, result_read, result_read, hfirst]
      cases s.locals.level name with
      | error e => rfl
      | ok level =>
          show ((s.map f).readAll names).result.map _ = ((s.readAll names).result.map _).map _
          rw [ih]
          cases (s.readAll names).result <;> rfl

variable (hf : LevelHom f)
include hf

theorem LevelHom.root (policy : Policy) (frame : String) :
    ((Session.root policy).named frame : Session L).map f = (Session.root policy).named frame := by
  have hstart := Session.start_map f frame policy (bottom : L) []
  rw [hf.map_bottom] at hstart
  exact hstart

theorem LevelHom.call (s : Session L) (callee : String) (levels : List L) :
    (s.call callee levels).map f = (s.map f).call callee (levels.map f) := by
  have hpc : (s.map f).pc.level = f s.pc.level := ProgramCounter.level_map f s.pc
  unfold Session.call
  rw [Session.start_map, hpc, List.map_map, List.map_map]
  congr 1
  exact List.map_congr_left fun level _ => hf.map_join level s.pc.level

theorem LevelHom.levelOf (s : Session L) (heap : Heap L) (operand : Operand L) :
    (s.map f).levelOf (heap.map f) (operand.map f) = (s.levelOf heap operand).map f := by
  have hslot : ∀ {place : Place} {id : Handle} {key : String},
      Heap.orUnknown place ((heap.map f).level? id key) =
        (Heap.orUnknown place (heap.level? id key)).map f := by
    intro place id key
    rw [Heap.level?_map]
    cases heap.level? id key <;> rfl
  cases operand with
  | «local» name => exact Locals.level_map f s.locals name
  | field object name => exact hslot
  | element array index => exact hslot
  | constant => exact congrArg Except.ok hf.map_bottom.symm
  | literal level => rfl

theorem LevelHom.joinOperands (s : Session L) (heap : Heap L) (level : L)
    (operands : List (Operand L)) :
    ((s.map f).joinOperands (heap.map f) (f level) (operands.map (Operand.map f))).result =
      (s.joinOperands heap level operands).result.map f := by
  induction operands generalizing level with
  | nil => rfl
  | cons operand operands ih =>
      rw [List.map_cons, Session.result_joinOperands_cons, Session.result_joinOperands_cons,
        hf.levelOf]
      cases s.levelOf heap operand with
      | error e => rfl
      | ok read =>
          show ((s.map f).joinOperands (heap.map f) (join (f level) (f read)) _).result = _
          rw [← hf.map_join]
          exact ih (join level read)

theorem LevelHom.operandLevel (s : Session L) (heap : Heap L) (operands : List (Operand L)) :
    ((s.map f).operandLevel (heap.map f) (operands.map (Operand.map f))).result =
      (s.operandLevel heap operands).result.map f := by
  unfold Session.operandLevel
  rw [← hf.map_bottom]
  exact hf.joinOperands s heap bottom operands

theorem LevelHom.argumentLevels (s : Session L) (heap : Heap L) (arguments : List (Operand L)) :
    ((s.map f).argumentLevels (heap.map f) (arguments.map (Operand.map f))).result =
      (s.argumentLevels heap arguments).result.map (List.map f) := by
  induction arguments with
  | nil => rfl
  | cons argument arguments ih =>
      have hfirst := hf.operandLevel s heap [argument]
      rw [List.map_cons, List.map_nil] at hfirst
      rw [List.map_cons, Session.result_argumentLevels_cons, Session.result_argumentLevels_cons,
        hfirst, ih]
      cases (s.operandLevel heap [argument]).result with
      | error e => rfl
      | ok level => cases (s.argumentLevels heap arguments).result <;> rfl

end Reading

/-! ## §5  Operations that succeed -/

section Operations

variable {f : L → M} [Level L] [Level M] {s s' : Session L} {heap heap' : Heap L}
  {op : Operation L} {reply : Reply L}

/-- **What an operation does is kept by a homomorphism of levels.** A check against
the greatest level needs the map to take no other level there. -/
theorem Operation.Succeeds.image (h : Succeeds s heap op reply s' heap') (hf : LevelHom f)
    (htop : ∀ name, op = .checkBelowTop name → ∀ a, f a = Level.top → a = Level.top) :
    (op.map f).Succeeds (s.map f) (heap.map f) (reply.map f) (s'.map f) (heap'.map f) := by
  have hpc : (s.map f).pc.level = f s.pc.level := ProgramCounter.level_map f s.pc
  have hjoin : ∀ level, join (f level) (s.map f).pc.level = f (join level s.pc.level) := by
    intro level
    rw [hpc, hf.map_join]
  have hfound : ∀ {name : String} {slot : LocalLabel L}, s.locals.find? name = some slot →
      (s.map f).locals.find? name = some (slot.map f) :=
    Locals.find?_map_of_some
  cases h with
  | declare name =>
      show Succeeds _ _ (.declare name) .done
        { s.map f with locals := (s.locals.declare name s.pc.level).map f } _
      rw [hf.declare, ← hpc]
      exact .declare name
  | read found => exact .read (hfound found)
  | @write name operand slot found admitted =>
      show Succeeds _ _ (.write name (f operand)) (.level (f (join operand s.pc.level)))
        { s.map f with
          locals := (s.locals.put name { slot with level := join operand s.pc.level }).map f } _
      rw [Locals.put_map, LocalLabel.map_withLevel, ← hjoin]
      -- what counts as declared before on the other side does so here: the order is kept
      refine .write (hfound found) fun hpre => ?_
      rw [hjoin]
      refine hf.map_le (admitted fun hle => hpre ?_)
      rw [hpc]
      exact hf.map_le hle
  | @label name level slot found =>
      show Succeeds _ _ (.label name (f level)) .done
        { s.map f with locals := (s.locals.put name { slot with level }).map f } _
      rw [Locals.put_map, LocalLabel.map_withLevel]
      exact .label (hfound found)
  | trackObject id =>
      rw [Heap.trackObject_map]
      exact .trackObject id
  | trackField id field =>
      rw [hf.trackField]
      exact .trackField id field
  | trackArray id length =>
      rw [hf.trackArray]
      exact .trackArray id length
  | newObject =>
      have hnew : Succeeds (s.map f) (heap.map f) .newObject _ _ _ := .newObject
      rw [Heap.allocate_map] at hnew
      exact hnew
  | newArray length =>
      have hnew : Succeeds (s.map f) (heap.map f) (.newArray length) _ _ _ := .newArray length
      rw [Heap.allocate_map] at hnew
      rw [hf.trackArray]
      exact hnew
  | readField found =>
      refine .readField ?_
      rw [Heap.level?_map, found, Option.map_some]
  | readElement found =>
      refine .readElement ?_
      rw [Heap.level?_map, found, Option.map_some]
  | @writeField id field operand previous heap' set =>
      have hset := Heap.setSlot?_map (f := f) set
      rw [hf.withField, ← hjoin] at hset
      show Succeeds _ _ (.writeField id field (f operand)) (.level (f (join operand s.pc.level)))
        _ _
      rw [← hjoin]
      exact .writeField hset
  | @writeElement id index operand previous heap' set =>
      have hset := Heap.setSlot?_map (f := f) set
      rw [hf.withElement, ← hjoin] at hset
      show Succeeds _ _ (.writeElement id index (f operand)) (.level (f (join operand s.pc.level)))
        _ _
      rw [← hjoin]
      exact .writeElement hset
  | labelField set =>
      have hset := Heap.setSlot?_map (f := f) set
      rw [hf.withField] at hset
      exact .labelField hset
  | @enter tag condition pc entered =>
      have hentered := hf.enter entered
      rw [← hjoin, hf.map_joinAll] at hentered
      show Succeeds _ _ (.enter tag (condition.map f)) (.level (f pc.level))
        { s.map f with pc := pc.map f } _
      rw [← ProgramCounter.level_map f pc]
      exact .enter hentered
  | @enterOn tag names levels pc read entered =>
      have hentered := hf.enter entered
      rw [← hjoin, hf.map_joinAll] at hentered
      have hread : ((s.map f).readAll names).result = .ok (levels.map f) := by
        rw [Session.result_readAll_map, read]
        rfl
      show Succeeds _ _ (.enterOn tag names) (.level (f pc.level))
        { s.map f with pc := pc.map f } _
      rw [← ProgramCounter.level_map f pc]
      exact .enterOn hread hentered
  | @exit tag pc left =>
      have hleft : (s.map f).pc.leave tag = .ok (pc.map f) := by
        show (s.pc.map f).leave tag = _
        rw [ProgramCounter.leave_map, left]
        rfl
      show Succeeds _ _ (.exit tag) (.level (f pc.level)) { s.map f with pc := pc.map f } _
      rw [← ProgramCounter.level_map f pc]
      exact .exit hleft
  | checkBelowTop found below =>
      exact .checkBelowTop (hfound found) fun h => below (htop _ rfl _ h)
  | checkSink found below => exact .checkSink (hfound found) (hf.map_le below)
  | @bindArgument position name level slot passed found =>
      have hpassed : (s.map f).arguments[position.toNat]? = some (f level) := by
        show (s.arguments.map f)[position.toNat]? = _
        rw [List.getElem?_map, passed, Option.map_some]
      have hdeclared := Locals.find?_map_of_some (f := f) found
      rw [hf.declare, ← hpc] at hdeclared
      show Succeeds _ _ (.bindArgument position name) (.level (f level))
        { s.map f with
          locals := ((s.locals.declare name s.pc.level).put name { slot with level }).map f } _
      rw [Locals.put_map, LocalLabel.map_withLevel, hf.declare, ← hpc]
      exact .bindArgument hpassed hdeclared
  | @returnLocal name slot found =>
      show Succeeds _ _ (.returnLocal name) (.level (f (join slot.level s.pc.level)))
        { s.map f with returned := some (f (join slot.level s.pc.level)) } _
      rw [← hjoin]
      exact .returnLocal (hfound found)
  | returnConstant =>
      show Succeeds _ _ .returnConstant (.level (f s.pc.level))
        { s.map f with returned := some (f s.pc.level) } _
      rw [← hpc]
      exact .returnConstant
  | checkClose balanced => exact .checkClose ((Session.checkClose_map f s).trans balanced)

/-! ## §6  Operations that fail -/

omit [Level L] [Level M] in
theorem Operation.needs?_map (op : Operation L) (f : L → M) : (op.map f).needs? = op.needs? := by
  cases op <;> rfl

omit [Level L] [Level M] in
theorem Operation.slot?_map (op : Operation L) (f : L → M) : (op.map f).slot? = op.slot? := by
  cases op <;> rfl

omit [Level L] [Level M] in
theorem Operation.sets_of_map {op : Operation L} (h : (op.map f).Sets) : op.Sets := by
  cases op with
  | writeField id field operand => trivial
  | writeElement id index operand => trivial
  | labelField id field level => trivial
  | _ => exact h

/-- **An embedding of levels keeps the faults**, with the levels that they name. -/
theorem Operation.Fails.image {e : Fault} (h : Fails s heap op e) (hf : LevelEmbedding f) :
    (op.map f).Fails (s.map f) (heap.map f) e := by
  have hpc : (s.map f).pc.level = f s.pc.level := ProgramCounter.level_map f s.pc
  have hfound : ∀ {name : String} {slot : LocalLabel L}, s.locals.find? name = some slot →
      (s.map f).locals.find? name = some (slot.map f) :=
    Locals.find?_map_of_some
  have hlimit : (s.map f).pc.limitReached? = s.pc.limitReached? :=
    ProgramCounter.limitReached?_map f s.pc
  cases h with
  | undeclared needs absent =>
      exact .undeclared ((op.needs?_map f).trans needs) (Locals.find?_map_of_none absent)
  | unregistered slot absent strict =>
      refine .unregistered ((op.slot?_map f).trans slot) ?_ fun hsets => strict (sets_of_map hsets)
      rw [Heap.level?_map, absent, Option.map_none]
  | @write name operand slot found preExisting raised =>
      have hjoin : join (f operand) (s.map f).pc.level = f (join operand s.pc.level) := by
        rw [hpc, hf.map_join]
      have hpre : (s.map f).PreExisting (slot.map f) := by
        intro hle
        rw [hpc] at hle
        exact preExisting (hf.le_of_map_le hle)
      have hraised : ¬ join (f operand) (s.map f).pc.level ≤ (slot.map f).level := by
        intro hle
        rw [hjoin] at hle
        exact raised (hf.le_of_map_le hle)
      rw [← hf.map_text (join operand s.pc.level), ← hf.map_text slot.level,
        ← hf.map_text s.pc.level, ← hjoin, ← hpc]
      exact .write (hfound found) hpre hraised
  | @checkBelowTop name slot found top =>
      rw [← hf.map_text slot.level]
      exact .checkBelowTop (hfound found) (hf.map_eq_top.2 top)
  | @checkSink name sink slot found above =>
      rw [← hf.map_text slot.level, ← hf.map_text sink]
      exact .checkSink (hfound found) fun hle => above (hf.le_of_map_le hle)
  | enter full => exact .enter (hlimit.trans full)
  | @unread tag names e unread =>
      refine .unread ?_
      rw [Session.result_readAll_map, unread]
      rfl
  | @enterOn tag names levels limit read full =>
      have hread : ((s.map f).readAll names).result = .ok (levels.map f) := by
        rw [Session.result_readAll_map, read]
        rfl
      exact .enterOn hread (hlimit.trans full)
  | @exit tag e left =>
      refine .exit ?_
      show (s.pc.map f).leave tag = _
      rw [ProgramCounter.leave_map, left]
      rfl
  | @bindArgument position name missing =>
      have hmissing : (s.map f).arguments[position.toNat]? = none := by
        show (s.arguments.map f)[position.toNat]? = none
        rw [List.getElem?_map, missing, Option.map_none]
      have hcount : (s.map f).arguments.length = s.arguments.length := List.length_map f
      rw [← hcount]
      exact .bindArgument hmissing
  | checkClose unbalanced => exact .checkClose ((Session.checkClose_map f s).trans unbalanced)

end Operations

end InfoFlow
