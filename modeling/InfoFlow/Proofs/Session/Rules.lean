import InfoFlow.Session.Operation

/-!
# The rules of a session

What an operation of a session can do, said once. `Succeeds` has one rule per
operation: what it needs, what it answers, and the session and the heap that it
leaves. `Fails` says when an operation fails, and with what. An operation follows
its rule or meets a fault (`succeeds_or_fails`), and what it does then is
determined (`perform_of_succeeds`, `perform_of_fails`); so the rule can be read
off a run that succeeded, the fault off one that failed. Invariants of sessions
are proved by cases on the rules, and two sessions are compared by cases on rules
and faults; neither opens an operation again.
-/

namespace InfoFlow

open Level (join joinAll)

namespace Operation

variable {L : Type}

/-! ## §1  The rules -/

section Rules

variable [Level L]

/-- `Succeeds s heap op reply s' heap'`: on session `s` and `heap`, operation
`op` answers `reply` and leaves session `s'` and `heap'`. -/
inductive Succeeds (s : Session L) (heap : Heap L) :
    Operation L → Reply L → Session L → Heap L → Prop
  | declare (name : String) :
      Succeeds s heap (.declare name) .done
        { s with locals := s.locals.declare name s.pc.level } heap
  | read {name : String} {slot : LocalLabel L} (found : s.locals.find? name = some slot) :
      Succeeds s heap (.read name) (.level slot.level) s heap
  | write {name : String} {operand : L} {slot : LocalLabel L}
      (found : s.locals.find? name = some slot)
      (admitted : s.PreExisting slot → join operand s.pc.level ≤ slot.level) :
      Succeeds s heap (.write name operand) (.level (join operand s.pc.level))
        { s with locals := s.locals.put name { slot with level := join operand s.pc.level } } heap
  | label {name : String} {level : L} {slot : LocalLabel L}
      (found : s.locals.find? name = some slot) :
      Succeeds s heap (.label name level) .done
        { s with locals := s.locals.put name { slot with level } } heap
  | trackObject (id : Handle) :
      Succeeds s heap (.trackObject id) .done s (heap.trackObject id)
  | trackField (id : Handle) (field : String) :
      Succeeds s heap (.trackField id field) .done s (heap.trackField id field)
  | trackArray (id : Handle) (length : UInt64) :
      Succeeds s heap (.trackArray id length) .done s (heap.trackArray id length)
  | newObject :
      Succeeds s heap .newObject (.handle (heap.allocate .object).1) s (heap.allocate .object).2
  | newArray (length : UInt64) :
      Succeeds s heap (.newArray length) (.handle (heap.allocate .array).1) s
        ((heap.allocate .array).2.trackArray (heap.allocate .array).1 length)
  | readField {id : Handle} {field : String} {level : L}
      (found : heap.level? id field = some level) :
      Succeeds s heap (.readField id field) (.level level) s heap
  | readElement {id : Handle} {index : UInt64} {level : L}
      (found : heap.level? id (indexKey index) = some level) :
      Succeeds s heap (.readElement id index) (.level level) s heap
  | writeField {id : Handle} {field : String} {operand previous : L} {heap' : Heap L}
      (set : (s.withField heap id field).setSlot? id field (join operand s.pc.level) =
        some (previous, heap')) :
      Succeeds s heap (.writeField id field operand) (.level (join operand s.pc.level)) s heap'
  | writeElement {id : Handle} {index : UInt64} {operand previous : L} {heap' : Heap L}
      (set : (s.withElement heap id index).setSlot? id (indexKey index)
        (join operand s.pc.level) = some (previous, heap')) :
      Succeeds s heap (.writeElement id index operand) (.level (join operand s.pc.level)) s heap'
  | labelField {id : Handle} {field : String} {level previous : L} {heap' : Heap L}
      (set : (s.withField heap id field).setSlot? id field level = some (previous, heap')) :
      Succeeds s heap (.labelField id field level) .done s heap'
  | enter {tag : Tag} {condition : List L} {pc : ProgramCounter L}
      (entered : s.pc.enter (join (joinAll condition) s.pc.level) tag = .ok pc) :
      Succeeds s heap (.enter tag condition) (.level pc.level) { s with pc } heap
  | enterOn {tag : Tag} {names : List String} {levels : List L} {pc : ProgramCounter L}
      (read : (s.readAll names).result = .ok levels)
      (entered : s.pc.enter (join (joinAll levels) s.pc.level) tag = .ok pc) :
      Succeeds s heap (.enterOn tag names) (.level pc.level) { s with pc } heap
  | exit {tag : Tag} {pc : ProgramCounter L} (left : s.pc.leave tag = .ok pc) :
      Succeeds s heap (.exit tag) (.level pc.level) { s with pc } heap
  | checkBelowTop {name : String} {slot : LocalLabel L}
      (found : s.locals.find? name = some slot) (below : slot.level ≠ Level.top) :
      Succeeds s heap (.checkBelowTop name) .done s heap
  | checkSink {name : String} {sink : L} {slot : LocalLabel L}
      (found : s.locals.find? name = some slot) (below : slot.level ≤ sink) :
      Succeeds s heap (.checkSink name sink) .done s heap
  | bindArgument {position : UInt64} {name : String} {level : L} {slot : LocalLabel L}
      (passed : s.arguments[position.toNat]? = some level)
      (found : (s.locals.declare name s.pc.level).find? name = some slot) :
      Succeeds s heap (.bindArgument position name) (.level level)
        { s with locals := (s.locals.declare name s.pc.level).put name { slot with level } } heap
  | returnLocal {name : String} {slot : LocalLabel L}
      (found : s.locals.find? name = some slot) :
      Succeeds s heap (.returnLocal name) (.level (join slot.level s.pc.level))
        { s with returned := some (join slot.level s.pc.level) } heap
  | returnConstant :
      Succeeds s heap .returnConstant (.level s.pc.level)
        { s with returned := some s.pc.level } heap
  | checkClose (balanced : s.checkClose = .ok ()) : Succeeds s heap .checkClose .done s heap

end Rules

/-! ## §2  The faults -/

/-- The local that has to be declared for an operation. -/
def needs? : Operation L → Option String
  | read name => some name
  | write name _ => some name
  | label name _ => some name
  | checkBelowTop name => some name
  | checkSink name _ => some name
  | returnLocal name => some name
  | _ => none

/-- The heap slot that an operation reads or sets: its record, its key, and the
place that a fault names. -/
def slot? : Operation L → Option (Handle × String × Place)
  | readField id field => some (id, field, .field id field)
  | readElement id index => some (id, indexKey index, .element id (indexKey index))
  | writeField id field _ => some (id, field, .field id field)
  | writeElement id index _ => some (id, indexKey index, .element id (indexKey index))
  | labelField id field _ => some (id, field, .field id field)
  | _ => none

/-- Operations that set a heap slot. -/
def Sets : Operation L → Prop
  | writeField _ _ _ => True
  | writeElement _ _ _ => True
  | labelField _ _ _ => True
  | _ => False

variable [Level L]

/-- `Fails s heap op e`: on session `s` and `heap`, operation `op` fails with `e`. -/
inductive Fails (s : Session L) (heap : Heap L) : Operation L → Fault → Prop
  | undeclared {op : Operation L} {name : String} (needs : op.needs? = some name)
      (absent : s.locals.find? name = none) : Fails s heap op (.unregistered (.local name))
  | unregistered {op : Operation L} {id : Handle} {key : String} {place : Place}
      (slot : op.slot? = some (id, key, place)) (absent : heap.level? id key = none)
      (strict : op.Sets → s.policy.autoRegister = false) : Fails s heap op (.unregistered place)
  | write {name : String} {operand : L} {slot : LocalLabel L}
      (found : s.locals.find? name = some slot) (preExisting : s.PreExisting slot)
      (raised : ¬ join operand s.pc.level ≤ slot.level) :
      Fails s heap (.write name operand)
        (.illegalFlow (.local name)
          (.sensitiveUpgrade (Level.text (join operand s.pc.level)) (Level.text slot.level)
            (Level.text s.pc.level)))
  | checkBelowTop {name : String} {slot : LocalLabel L}
      (found : s.locals.find? name = some slot) (top : slot.level = Level.top) :
      Fails s heap (.checkBelowTop name)
        (.illegalFlow (.local name) (.aboveBound (Level.text slot.level) "below top"))
  | checkSink {name : String} {sink : L} {slot : LocalLabel L}
      (found : s.locals.find? name = some slot) (above : ¬ slot.level ≤ sink) :
      Fails s heap (.checkSink name sink)
        (.illegalFlow (.local name) (.aboveBound (Level.text slot.level) (Level.text sink)))
  | enter {tag : Tag} {condition : List L} {limit : UInt64}
      (full : s.pc.limitReached? = some limit) : Fails s heap (.enter tag condition) (.tooDeep limit)
  | unread {tag : Tag} {names : List String} {e : Fault}
      (unread : (s.readAll names).result = .error e) : Fails s heap (.enterOn tag names) e
  | enterOn {tag : Tag} {names : List String} {levels : List L} {limit : UInt64}
      (read : (s.readAll names).result = .ok levels)
      (full : s.pc.limitReached? = some limit) : Fails s heap (.enterOn tag names) (.tooDeep limit)
  | exit {tag : Tag} {e : Fault} (left : s.pc.leave tag = .error e) : Fails s heap (.exit tag) e
  | bindArgument {position : UInt64} {name : String}
      (missing : s.arguments[position.toNat]? = none) :
      Fails s heap (.bindArgument position name)
        (.missingArgument position s.arguments.length)
  | checkClose {e : Fault} (unbalanced : s.checkClose = .error e) : Fails s heap .checkClose e

/-! ## §3  Rule or fault -/

variable (s : Session L) (heap : Heap L)

theorem declared_or_fails (op : Operation L) {name : String} (needs : op.needs? = some name) :
    (∃ slot, s.locals.find? name = some slot) ∨ ∃ e, Fails s heap op e := by
  cases hfound : s.locals.find? name with
  | some slot => exact Or.inl ⟨slot, rfl⟩
  | none => exact Or.inr ⟨_, .undeclared needs hfound⟩

omit [Level L] in
/-- Where a slot is registered before it is set, setting it does not fail. -/
theorem exists_setSlot?_or {tracked : Heap L} {id : Handle} {key : String} (level : L)
    (htracked : tracked.level? id key ≠ none) :
    (∃ previous heap', (if s.policy.autoRegister then tracked else heap).setSlot? id key level =
        some (previous, heap')) ∨
      heap.level? id key = none ∧ s.policy.autoRegister = false := by
  cases hauto : s.policy.autoRegister with
  | true =>
      obtain ⟨previous, hprevious⟩ := Option.ne_none_iff_exists'.1 htracked
      exact Or.inl ⟨previous, Heap.exists_setSlot? hprevious level⟩
  | false =>
      cases hlevel : heap.level? id key with
      | some previous => exact Or.inl ⟨previous, Heap.exists_setSlot? hlevel level⟩
      | none => exact Or.inr ⟨rfl, rfl⟩

theorem setField_or_fails (op : Operation L) {id : Handle} {field : String} (level : L)
    (hslot : op.slot? = some (id, field, .field id field)) :
    (∃ previous heap', (s.withField heap id field).setSlot? id field level =
        some (previous, heap')) ∨ ∃ e, Fails s heap op e := by
  have htracked : (heap.trackField id field).level? id field ≠ none := by
    rw [Heap.level?_trackField]
    simp
  rcases exists_setSlot?_or s heap level htracked with hset | ⟨habsent, hstrict⟩
  · exact Or.inl hset
  · exact Or.inr ⟨_, .unregistered hslot habsent fun _ => hstrict⟩

theorem setElement_or_fails {id : Handle} {index : UInt64} (operand : L) :
    (∃ previous heap', (s.withElement heap id index).setSlot? id (indexKey index)
        (join operand s.pc.level) = some (previous, heap')) ∨
      ∃ e, Fails s heap (.writeElement id index operand) e := by
  have htracked : (heap.trackElement id index).level? id (indexKey index) ≠ none := by
    rw [Heap.level?_trackElement]
    simp
  rcases exists_setSlot?_or s heap (join operand s.pc.level) htracked with hset | ⟨habsent, hstrict⟩
  · exact Or.inl hset
  · exact Or.inr ⟨_, .unregistered rfl habsent fun _ => hstrict⟩

/-- **Every operation follows its rule or one of the faults.** -/
theorem succeeds_or_fails (op : Operation L) :
    (∃ reply s' heap', Succeeds s heap op reply s' heap') ∨ ∃ e, Fails s heap op e := by
  cases op with
  | declare name => exact Or.inl ⟨_, _, _, .declare name⟩
  | read name =>
      rcases declared_or_fails s heap (.read name) rfl with ⟨slot, hfound⟩ | hfails
      · exact Or.inl ⟨_, _, _, .read hfound⟩
      · exact Or.inr hfails
  | write name operand =>
      rcases declared_or_fails s heap (.write name operand) rfl with ⟨slot, hfound⟩ | hfails
      · by_cases hadmitted : s.PreExisting slot → join operand s.pc.level ≤ slot.level
        · exact Or.inl ⟨_, _, _, .write hfound hadmitted⟩
        · obtain ⟨hpre, hraised⟩ := Classical.not_imp.1 hadmitted
          exact Or.inr ⟨_, .write hfound hpre hraised⟩
      · exact Or.inr hfails
  | label name level =>
      rcases declared_or_fails s heap (.label name level) rfl with ⟨slot, hfound⟩ | hfails
      · exact Or.inl ⟨_, _, _, .label hfound⟩
      · exact Or.inr hfails
  | trackObject id => exact Or.inl ⟨_, _, _, .trackObject id⟩
  | trackField id field => exact Or.inl ⟨_, _, _, .trackField id field⟩
  | trackArray id length => exact Or.inl ⟨_, _, _, .trackArray id length⟩
  | newObject => exact Or.inl ⟨_, _, _, .newObject⟩
  | newArray length => exact Or.inl ⟨_, _, _, .newArray length⟩
  | readField id field =>
      cases hlevel : heap.level? id field with
      | some level => exact Or.inl ⟨_, _, _, .readField hlevel⟩
      | none => exact Or.inr ⟨_, .unregistered rfl hlevel False.elim⟩
  | readElement id index =>
      cases hlevel : heap.level? id (indexKey index) with
      | some level => exact Or.inl ⟨_, _, _, .readElement hlevel⟩
      | none => exact Or.inr ⟨_, .unregistered rfl hlevel False.elim⟩
  | writeField id field operand =>
      rcases setField_or_fails s heap (.writeField id field operand) (join operand s.pc.level) rfl
        with ⟨previous, heap', hset⟩ | hfails
      · exact Or.inl ⟨_, _, _, .writeField hset⟩
      · exact Or.inr hfails
  | writeElement id index operand =>
      rcases setElement_or_fails s heap operand with ⟨previous, heap', hset⟩ | hfails
      · exact Or.inl ⟨_, _, _, .writeElement hset⟩
      · exact Or.inr hfails
  | labelField id field level =>
      rcases setField_or_fails s heap (.labelField id field level) level rfl with
        ⟨previous, heap', hset⟩ | hfails
      · exact Or.inl ⟨_, _, _, .labelField hset⟩
      · exact Or.inr hfails
  | enter tag condition =>
      cases hlimit : s.pc.limitReached? with
      | some limit => exact Or.inr ⟨_, .enter hlimit⟩
      | none => exact Or.inl ⟨_, _, _, .enter (ProgramCounter.enter_eq_ok.2 ⟨hlimit, rfl⟩)⟩
  | enterOn tag names =>
      cases hread : (s.readAll names).result with
      | error e => exact Or.inr ⟨_, .unread hread⟩
      | ok levels =>
          cases hlimit : s.pc.limitReached? with
          | some limit => exact Or.inr ⟨_, .enterOn hread hlimit⟩
          | none =>
              exact Or.inl ⟨_, _, _, .enterOn hread (ProgramCounter.enter_eq_ok.2 ⟨hlimit, rfl⟩)⟩
  | exit tag =>
      cases hleft : s.pc.leave tag with
      | error e => exact Or.inr ⟨_, .exit hleft⟩
      | ok pc => exact Or.inl ⟨_, _, _, .exit hleft⟩
  | checkBelowTop name =>
      rcases declared_or_fails s heap (.checkBelowTop name) rfl with ⟨slot, hfound⟩ | hfails
      · by_cases htop : slot.level = Level.top
        · exact Or.inr ⟨_, .checkBelowTop hfound htop⟩
        · exact Or.inl ⟨_, _, _, .checkBelowTop hfound htop⟩
      · exact Or.inr hfails
  | checkSink name sink =>
      rcases declared_or_fails s heap (.checkSink name sink) rfl with ⟨slot, hfound⟩ | hfails
      · by_cases hbelow : slot.level ≤ sink
        · exact Or.inl ⟨_, _, _, .checkSink hfound hbelow⟩
        · exact Or.inr ⟨_, .checkSink hfound hbelow⟩
      · exact Or.inr hfails
  | bindArgument position name =>
      cases hpassed : s.arguments[position.toNat]? with
      | none => exact Or.inr ⟨_, .bindArgument hpassed⟩
      | some level =>
          have hdeclared := Locals.find?_declare_self s.locals name s.pc.level
          exact Or.inl ⟨_, _, _, .bindArgument hpassed hdeclared⟩
  | returnLocal name =>
      rcases declared_or_fails s heap (.returnLocal name) rfl with ⟨slot, hfound⟩ | hfails
      · exact Or.inl ⟨_, _, _, .returnLocal hfound⟩
      · exact Or.inr hfails
  | returnConstant => exact Or.inl ⟨_, _, _, .returnConstant⟩
  | checkClose =>
      cases hclose : s.checkClose with
      | error e => exact Or.inr ⟨_, .checkClose hclose⟩
      | ok done => exact Or.inl ⟨_, _, _, .checkClose hclose⟩

/-! ## §4  What the rules and the faults determine -/

variable {s s' : Session L} {heap heap' : Heap L} {op : Operation L} {reply : Reply L}

/-- A declaration answers in any case. The second one leaves the locals as they are. -/
theorem exists_declare_eq (s : Session L) (name : String) :
    ∃ journal, s.declare name =
      .noted { s with locals := s.locals.declare name s.pc.level } () journal := by
  unfold Session.declare
  by_cases hc : s.locals.contains name = true
  · have hsame : s.locals.declare name s.pc.level = s.locals := if_pos hc
    rw [if_pos hc, hsame]
    exact ⟨[], rfl⟩
  · rw [if_neg hc]
    exact ⟨_, rfl⟩

/-- **An operation that meets its rule answers and leaves what the rule says.** -/
theorem perform_of_succeeds (h : Succeeds s heap op reply s' heap') :
    (op.perform s heap).result = .ok reply ∧ (op.perform s heap).state = (s', heap') := by
  cases h with
  | declare name =>
      obtain ⟨journal, hdeclare⟩ := exists_declare_eq s name
      simp only [perform, onSession, hdeclare]
      exact ⟨rfl, rfl⟩
  | read found =>
      have hlevel := Locals.level_eq_ok.2 ⟨_, found, rfl⟩
      simp only [perform, reading, Session.read, hlevel]
      exact ⟨rfl, rfl⟩
  | write found admitted =>
      have hslot := Locals.slot_eq_ok.2 found
      have hrefused : ¬ (s.PreExisting _ ∧ ¬ _) := fun hrefused => hrefused.2 (admitted hrefused.1)
      simp only [perform, onSession, Session.write, hslot, if_neg hrefused]
      exact ⟨rfl, rfl⟩
  | label found =>
      have hslot := Locals.slot_eq_ok.2 found
      simp only [perform, onSession, Session.label, hslot]
      exact ⟨rfl, rfl⟩
  | trackObject id =>
      by_cases hc : heap.contains id = true
      · have hsame : heap.trackObject id = heap := if_pos hc
        simp only [perform, onHeap, Session.trackObject, if_pos hc, hsame]
        exact ⟨rfl, rfl⟩
      · simp only [perform, onHeap, Session.trackObject, if_neg hc]
        exact ⟨rfl, rfl⟩
  | trackField id field => exact ⟨rfl, rfl⟩
  | trackArray id length => exact ⟨rfl, rfl⟩
  | newObject => exact ⟨rfl, rfl⟩
  | newArray length => exact ⟨rfl, rfl⟩
  | readField found =>
      simp only [perform, reading, Session.readField, Heap.fieldLevel, found, Heap.orUnknown]
      exact ⟨rfl, rfl⟩
  | readElement found =>
      simp only [perform, reading, Session.readElement, Heap.elementLevel, found, Heap.orUnknown]
      exact ⟨rfl, rfl⟩
  | writeField set =>
      simp only [perform, onHeap, Session.writeField, Heap.setField, set, Heap.orUnknown]
      exact ⟨rfl, rfl⟩
  | writeElement set =>
      simp only [perform, onHeap, Session.writeElement, Heap.setElement, set, Heap.orUnknown]
      exact ⟨rfl, rfl⟩
  | labelField set =>
      simp only [perform, onHeap, Session.labelField, Heap.setField, set, Heap.orUnknown]
      exact ⟨rfl, rfl⟩
  | enter entered =>
      simp only [perform, onSession, Session.enter, entered]
      exact ⟨rfl, rfl⟩
  | enterOn read entered =>
      simp only [perform, onSession, Session.enterOn, Outcome.andThen, Outcome.result_mapState,
        read, Outcome.state_mapState, Session.enter, entered]
      exact ⟨rfl, rfl⟩
  | exit left =>
      simp only [perform, onSession, Session.exit, left]
      exact ⟨rfl, rfl⟩
  | checkBelowTop found below =>
      have hlevel := Locals.level_eq_ok.2 ⟨_, found, rfl⟩
      simp only [perform, onSession, Session.checkBelowTop, hlevel, if_neg below]
      exact ⟨rfl, rfl⟩
  | checkSink found below =>
      have hlevel := Locals.level_eq_ok.2 ⟨_, found, rfl⟩
      simp only [perform, onSession, Session.checkSink, hlevel, if_pos below]
      exact ⟨rfl, rfl⟩
  | @bindArgument position name level slot passed found =>
      obtain ⟨journal, hdeclare⟩ := exists_declare_eq s name
      have hslot := Locals.slot_eq_ok.2 found
      simp only [perform, onSession, Session.bindArgument, passed, hdeclare, Outcome.andThen,
        Outcome.noted, hslot]
      exact ⟨rfl, rfl⟩
  | returnLocal found =>
      have hlevel := Locals.level_eq_ok.2 ⟨_, found, rfl⟩
      simp only [perform, onSession, Session.returnLocal, hlevel]
      exact ⟨rfl, rfl⟩
  | returnConstant => exact ⟨rfl, rfl⟩
  | checkClose balanced =>
      simp only [perform, balanced]
      exact ⟨rfl, rfl⟩

theorem perform_of_undeclared {name : String} (needs : op.needs? = some name)
    (absent : s.locals.find? name = none) :
    (op.perform s heap).result = .error (.unregistered (.local name)) ∧
      (op.perform s heap).state = (s, heap) := by
  have hslot := Locals.slot_of_none absent
  have hlevel := Locals.level_of_none absent
  cases op with
  | read name =>
      cases needs
      simp only [perform, reading, Session.read, hlevel]
      exact ⟨rfl, rfl⟩
  | write name operand =>
      cases needs
      simp only [perform, onSession, Session.write, hslot]
      exact ⟨rfl, rfl⟩
  | label name level =>
      cases needs
      simp only [perform, onSession, Session.label, hslot]
      exact ⟨rfl, rfl⟩
  | checkBelowTop name =>
      cases needs
      simp only [perform, onSession, Session.checkBelowTop, hlevel]
      exact ⟨rfl, rfl⟩
  | checkSink name sink =>
      cases needs
      simp only [perform, onSession, Session.checkSink, hlevel]
      exact ⟨rfl, rfl⟩
  | returnLocal name =>
      cases needs
      simp only [perform, onSession, Session.returnLocal, hlevel]
      exact ⟨rfl, rfl⟩
  | _ => cases needs

theorem perform_of_unregistered {id : Handle} {key : String} {place : Place}
    (slot : op.slot? = some (id, key, place)) (absent : heap.level? id key = none)
    (strict : op.Sets → s.policy.autoRegister = false) :
    (op.perform s heap).result = .error (.unregistered place) ∧
      (op.perform s heap).state = (s, heap) := by
  have hset := Heap.setSlot?_of_none absent
  cases op with
  | readField id field =>
      cases slot
      simp only [perform, reading, Session.readField, Heap.fieldLevel, absent, Heap.orUnknown]
      exact ⟨rfl, rfl⟩
  | readElement id index =>
      cases slot
      simp only [perform, reading, Session.readElement, Heap.elementLevel, absent, Heap.orUnknown]
      exact ⟨rfl, rfl⟩
  | writeField id field operand =>
      cases slot
      have hsame : s.withField heap id key = heap := if_neg (Bool.eq_false_iff.1 (strict trivial))
      simp only [perform, onHeap, Session.writeField, hsame, Heap.setField, hset, Heap.orUnknown]
      exact ⟨rfl, rfl⟩
  | writeElement id index operand =>
      cases slot
      have hsame : s.withElement heap id index = heap :=
        if_neg (Bool.eq_false_iff.1 (strict trivial))
      simp only [perform, onHeap, Session.writeElement, hsame, Heap.setElement, hset, Heap.orUnknown]
      exact ⟨rfl, rfl⟩
  | labelField id field level =>
      cases slot
      have hsame : s.withField heap id key = heap := if_neg (Bool.eq_false_iff.1 (strict trivial))
      simp only [perform, onHeap, Session.labelField, hsame, Heap.setField, hset, Heap.orUnknown]
      exact ⟨rfl, rfl⟩
  | _ => cases slot

/-- **An operation that meets a fault fails with it** and changes nothing. -/
theorem perform_of_fails {e : Fault} (h : Fails s heap op e) :
    (op.perform s heap).result = .error e ∧ (op.perform s heap).state = (s, heap) := by
  cases h with
  | undeclared needs absent => exact perform_of_undeclared needs absent
  | unregistered slot absent strict => exact perform_of_unregistered slot absent strict
  | write found preExisting raised =>
      have hslot := Locals.slot_eq_ok.2 found
      simp only [perform, onSession, Session.write, hslot, if_pos (And.intro preExisting raised)]
      exact ⟨rfl, rfl⟩
  | checkBelowTop found top =>
      have hlevel := Locals.level_eq_ok.2 ⟨_, found, rfl⟩
      simp only [perform, onSession, Session.checkBelowTop, hlevel, if_pos top]
      exact ⟨rfl, rfl⟩
  | checkSink found above =>
      have hlevel := Locals.level_eq_ok.2 ⟨_, found, rfl⟩
      simp only [perform, onSession, Session.checkSink, hlevel, if_neg above]
      exact ⟨rfl, rfl⟩
  | enter full =>
      simp only [perform, onSession, Session.enter, ProgramCounter.enter, full]
      exact ⟨rfl, rfl⟩
  | unread unread =>
      simp only [perform, onSession, Session.enterOn, Outcome.andThen, Outcome.result_mapState,
        unread]
      exact ⟨rfl, rfl⟩
  | enterOn read full =>
      simp only [perform, onSession, Session.enterOn, Outcome.andThen, Outcome.result_mapState,
        read, Outcome.state_mapState, Session.enter, ProgramCounter.enter, full]
      exact ⟨rfl, rfl⟩
  | exit left =>
      simp only [perform, onSession, Session.exit, left]
      exact ⟨rfl, rfl⟩
  | bindArgument missing =>
      simp only [perform, onSession, Session.bindArgument, missing]
      exact ⟨rfl, rfl⟩
  | checkClose unbalanced =>
      simp only [perform, unbalanced]
      exact ⟨rfl, rfl⟩

/-! ## §5  What can be read off a run -/

/-- An operation that succeeds has followed its rule. -/
theorem succeeds_of_ok (h : (op.perform s heap).result = .ok reply) :
    Succeeds s heap op reply (op.perform s heap).state.1 (op.perform s heap).state.2 := by
  rcases succeeds_or_fails s heap op with ⟨reply', s', heap', hrule⟩ | ⟨e, hfault⟩
  · obtain ⟨hresult, hstate⟩ := perform_of_succeeds hrule
    rw [h] at hresult
    cases hresult
    rw [hstate]
    exact hrule
  · rw [(perform_of_fails hfault).1] at h
    cases h

/-- An operation that fails has met its fault. -/
theorem fails_of_error {e : Fault} (h : (op.perform s heap).result = .error e) :
    Fails s heap op e := by
  rcases succeeds_or_fails s heap op with ⟨reply', s', heap', hrule⟩ | ⟨e', hfault⟩
  · rw [(perform_of_succeeds hrule).1] at h
    cases h
  · rw [(perform_of_fails hfault).1] at h
    cases h
    exact hfault

/-- A failed operation changes neither the session nor the heap. -/
theorem state_of_error {e : Fault} (h : (op.perform s heap).result = .error e) :
    (op.perform s heap).state = (s, heap) :=
  (perform_of_fails (fails_of_error h)).2

theorem state_cases (op : Operation L) (s : Session L) (heap : Heap L) :
    (op.perform s heap).state = (s, heap) ∨
      ∃ reply, Succeeds s heap op reply (op.perform s heap).state.1 (op.perform s heap).state.2 := by
  cases h : (op.perform s heap).result with
  | error e => exact Or.inl (state_of_error h)
  | ok reply => exact Or.inr ⟨reply, succeeds_of_ok h⟩

end Operation

end InfoFlow
