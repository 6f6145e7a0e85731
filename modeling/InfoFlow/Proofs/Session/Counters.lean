import InfoFlow.Proofs.Session.Reading

/-!
# Counters and failures

Two counters are kept: of illegal flows, and of branches that are left in the wrong order. They
tick where a failure arises, which is in a helper for the one and in the middle of an operation
for the other; all other failures leave them alone. An outcome is *counted* if its notes hold one
tick of the counter that its failure belongs to, and no other tick (`Outcome.Counted`). Outcomes
put together of counted ones are counted, so that every operation of a session is
(`Operation.counted_perform`), and every action of a trace (`Action.counted_perform`).
-/

namespace InfoFlow

/-- The counter that a failure belongs to, if it is counted. -/
def Fault.counter? : Fault → Option Counter
  | illegalFlow .. => some .illegalFlows
  | wrongExit .. => some .wrongExits
  | _ => none

/-- Whether the failure is a branch left in the wrong order. -/
def Fault.isWrongExit : Fault → Bool
  | wrongExit .. => true
  | _ => false

theorem Fault.isViolation_iff {e : Fault} :
    e.isViolation = true ↔ e.counter? = some .illegalFlows := by
  cases e <;> simp [isViolation, counter?]

theorem Fault.isWrongExit_iff {e : Fault} :
    e.isWrongExit = true ↔ e.counter? = some .wrongExits := by
  cases e <;> simp [isWrongExit, counter?]

/-! ## §1  Ticks -/

namespace Journal

/-- The ticks of all counters, in order. -/
def ticks (journal : Journal) : List Counter :=
  journal.filterMap fun
    | .line _ => none
    | .tick counter => some counter

theorem ticks_append (first second : Journal) :
    ticks (first ++ second) = first.ticks ++ second.ticks :=
  List.filterMap_append

theorem count_eq (journal : Journal) (counter : Counter) :
    journal.count counter = journal.ticks.count counter := by
  unfold count ticks
  rw [List.count_filterMap, List.count_eq_countP]
  refine congrArg (List.countP · journal) (funext fun note => ?_)
  cases note with
  | line line => rfl
  | tick other =>
      rw [Bool.eq_iff_iff]
      simp

end Journal

namespace Outcome

variable {ε δ σ τ α β : Type} {counter? : ε → Option Counter} {o : Outcome ε σ α}

/-- The counter that a result belongs to. An answer belongs to none. -/
def counterOf? (counter? : ε → Option Counter) : Except ε α → Option Counter
  | .ok _ => none
  | .error e => counter? e

theorem counterOf?_map (result : Except ε α) (f : α → β) :
    counterOf? counter? (result.map f) = counterOf? counter? result := by
  cases result <;> rfl

theorem counterOf?_mapError {reported? : δ → Option Counter} {f : ε → δ} (result : Except ε α)
    (hsame : ∀ e, reported? (f e) = counter? e) :
    counterOf? reported? (result.mapError f) = counterOf? counter? result := by
  cases result with
  | error e => exact hsame e
  | ok a => rfl

/-- The notes hold a tick of the counter that the failure belongs to, and no other. -/
def Counted (counter? : ε → Option Counter) (o : Outcome ε σ α) : Prop :=
  o.journal.ticks = (counterOf? counter? o.result).toList

theorem counted_noted {s : σ} {a : α} {journal : Journal} (h : journal.ticks = []) :
    (noted s a journal).Counted counter? :=
  h

theorem counted_ok (s : σ) (a : α) : (ok s a).Counted counter? := rfl

theorem counted_fail {s : σ} {e : ε} (h : counter? e = none) :
    (fail s e : Outcome ε σ α).Counted counter? := by
  show [] = (counter? e).toList
  rw [h]
  rfl

theorem counted_ofExcept {s : σ} {result : Except ε α}
    (h : ∀ e, result = .error e → counter? e = none) :
    (ofExcept s result).Counted counter? := by
  cases result with
  | error e => exact counted_fail (h e rfl)
  | ok a => exact counted_ok s a

theorem Counted.andThen {next : α → σ → Outcome ε σ β} (h : o.Counted counter?)
    (hnext : ∀ a s, (next a s).Counted counter?) : (o.andThen next).Counted counter? := by
  unfold Counted at h
  unfold Outcome.andThen
  cases hresult : o.result with
  | error e =>
      rw [hresult] at h
      exact h
  | ok a =>
      rw [hresult] at h
      show (o.journal ++ (next a o.state).journal).ticks = _
      rw [Journal.ticks_append, h]
      exact hnext a o.state

theorem Counted.map (h : o.Counted counter?) (f : α → β) : (o.map f).Counted counter? := by
  unfold Counted at h
  rw [← counterOf?_map o.result f] at h
  exact h

theorem Counted.mapState (h : o.Counted counter?) (f : σ → τ) :
    (o.mapState f).Counted counter? :=
  h

/-- A failure may be reported as another one of the same counter. -/
theorem Counted.mapError {reported? : δ → Option Counter} {f : ε → δ} (h : o.Counted counter?)
    (hsame : ∀ e, reported? (f e) = counter? e) : (o.mapError f).Counted reported? := by
  unfold Counted at h
  rw [← counterOf?_mapError o.result hsame] at h
  exact h

/-- The outcome is a failure of this kind. -/
def fails (o : Outcome ε σ α) (kind : ε → Bool) : Bool :=
  match o.result with
  | .ok _ => false
  | .error e => kind e

/-- **A counter counts the failures that belong to it**, whatever is carried out one after the
other. -/
theorem count_flatMap_journal {outcomes : List (Outcome ε σ α)}
    (h : ∀ o ∈ outcomes, o.Counted counter?) {counter : Counter} {kind : ε → Bool}
    (hkind : ∀ e, kind e = true ↔ counter? e = some counter) :
    Journal.count (outcomes.flatMap (·.journal)) counter = outcomes.countP (·.fails kind) := by
  rw [Journal.count_eq]
  induction outcomes with
  | nil => rfl
  | cons o outcomes ih =>
      rw [List.forall_mem_cons] at h
      obtain ⟨hcounted, hrest⟩ := h
      have hone : o.journal.ticks.count counter = if o.fails kind then 1 else 0 := by
        rw [hcounted]
        unfold fails
        cases o.result with
        | ok a => rfl
        | error e =>
            show (counter? e).toList.count counter = if kind e = true then 1 else 0
            simp only [hkind]
            cases counter? e with
            | none => rfl
            | some other => simp [List.count_singleton]
      rw [List.flatMap_cons, Journal.ticks_append, List.count_append, hone, ih hrest,
        List.countP_cons, Nat.add_comm]

end Outcome

open Outcome (Counted counted_noted counted_ok counted_fail)

variable {L : Type}

/-! ## §2  Failures that are not counted -/

section Uncounted

variable {e : Fault}

theorem Locals.uncounted_of_slot {locals : Locals L} {name : String}
    (h : locals.slot name = .error e) : e.counter? = none := by
  unfold Locals.slot at h
  split at h
  · cases h
  · cases h
    rfl

theorem Locals.uncounted_of_level {locals : Locals L} {name : String}
    (h : locals.level name = .error e) : e.counter? = none := by
  rw [(Session.unregistered_of_level h).2]
  rfl

theorem Heap.uncounted_of_orUnknown {α : Type} {place : Place} {found? : Option α}
    (h : Heap.orUnknown place found? = .error e) : e.counter? = none := by
  cases found? with
  | none =>
      cases h
      rfl
  | some a => cases h

theorem ProgramCounter.uncounted_of_enter [Level L] {pc : ProgramCounter L} {condition : L}
    {tag : Tag} (h : pc.enter condition tag = .error e) : e.counter? = none := by
  unfold ProgramCounter.enter at h
  split at h
  · cases h
    rfl
  · cases h

/-- Leaving a branch fails in one way only. -/
theorem ProgramCounter.counter?_of_leave {pc : ProgramCounter L} {tag : Tag}
    (h : pc.leave tag = .error e) : e.counter? = some .wrongExits := by
  unfold ProgramCounter.leave at h
  split at h
  · cases h
    rfl
  · split at h
    · cases h
    · cases h
      rfl

theorem Session.uncounted_of_checkClose {s : Session L} (h : s.checkClose = .error e) :
    e.counter? = none := by
  unfold Session.checkClose at h
  split at h
  · cases h
    rfl
  · cases h

end Uncounted

/-! ## §3  Operations of a session -/

variable [Level L]

namespace Session

variable (s : Session L) (heap : Heap L)

omit [Level L] in
theorem counted_refuse {σ α : Type} (state : σ) (target : Place) (reason : FlowReason) :
    (s.refuse state target reason : Outcome Fault σ α).Counted Fault.counter? :=
  rfl

theorem counted_declare (name : String) : (s.declare name).Counted Fault.counter? := by
  unfold declare
  split
  · exact counted_ok _ _
  · exact counted_noted rfl

theorem counted_read (name : String) : (s.read name).Counted Fault.counter? := by
  unfold read
  split
  · rename_i hlevel
    exact counted_fail (Locals.uncounted_of_level hlevel)
  · exact counted_noted rfl

theorem counted_write (name : String) (operand : L) :
    (s.write name operand).Counted Fault.counter? := by
  unfold write
  dsimp only
  split
  · rename_i hslot
    exact counted_fail (Locals.uncounted_of_slot hslot)
  · split
    · exact s.counted_refuse _ _ _
    · exact counted_noted rfl

theorem counted_label (name : String) (level : L) :
    (s.label name level).Counted Fault.counter? := by
  unfold label
  split
  · rename_i hslot
    exact counted_fail (Locals.uncounted_of_slot hslot)
  · exact counted_noted rfl

omit [Level L] in
theorem counted_trackObject (id : Handle) : (s.trackObject heap id).Counted Fault.counter? := by
  unfold trackObject
  split
  · exact counted_ok _ _
  · exact counted_noted rfl

theorem counted_readField (id : Handle) (field : String) :
    (s.readField heap id field).Counted Fault.counter? := by
  unfold readField
  split
  · rename_i hlevel
    exact counted_fail (Heap.uncounted_of_orUnknown hlevel)
  · exact counted_noted rfl

theorem counted_readElement (id : Handle) (index : UInt64) :
    (s.readElement heap id index).Counted Fault.counter? := by
  unfold readElement
  split
  · rename_i hlevel
    exact counted_fail (Heap.uncounted_of_orUnknown hlevel)
  · exact counted_noted rfl

theorem counted_writeField (id : Handle) (field : String) (operand : L) :
    (s.writeField heap id field operand).Counted Fault.counter? := by
  unfold writeField
  dsimp only
  split
  · rename_i hset
    exact counted_fail (Heap.uncounted_of_orUnknown hset)
  · exact counted_noted rfl

theorem counted_writeElement (id : Handle) (index : UInt64) (operand : L) :
    (s.writeElement heap id index operand).Counted Fault.counter? := by
  unfold writeElement
  dsimp only
  split
  · rename_i hset
    exact counted_fail (Heap.uncounted_of_orUnknown hset)
  · exact counted_noted rfl

theorem counted_labelField (id : Handle) (field : String) (level : L) :
    (s.labelField heap id field level).Counted Fault.counter? := by
  unfold labelField
  dsimp only
  split
  · rename_i hset
    exact counted_fail (Heap.uncounted_of_orUnknown hset)
  · exact counted_noted rfl

theorem counted_enter (tag : Tag) (condition : List L) :
    (s.enter tag condition).Counted Fault.counter? := by
  unfold enter
  dsimp only
  split
  · rename_i henter
    exact counted_fail (ProgramCounter.uncounted_of_enter henter)
  · exact counted_noted rfl

theorem counted_readAll (names : List String) : (s.readAll names).Counted Fault.counter? := by
  induction names with
  | nil => exact counted_ok _ _
  | cons name names ih => exact (s.counted_read name).andThen fun level _ => ih.map (level :: ·)

theorem counted_enterOn (tag : Tag) (names : List String) :
    (s.enterOn tag names).Counted Fault.counter? :=
  ((s.counted_readAll names).mapState _).andThen fun levels s => s.counted_enter tag levels

theorem counted_exit (tag : Tag) : (s.exit tag).Counted Fault.counter? := by
  unfold exit
  split
  · rename_i e hleave
    show [Counter.wrongExits] = e.counter?.toList
    rw [ProgramCounter.counter?_of_leave hleave]
    rfl
  · exact counted_noted rfl

theorem counted_checkBelowTop (name : String) :
    (s.checkBelowTop name).Counted Fault.counter? := by
  unfold checkBelowTop
  split
  · rename_i hlevel
    exact counted_fail (Locals.uncounted_of_level hlevel)
  · split
    · exact s.counted_refuse _ _ _
    · exact counted_ok _ _

theorem counted_checkSink (name : String) (sink : L) :
    (s.checkSink name sink).Counted Fault.counter? := by
  unfold checkSink
  split
  · rename_i hlevel
    exact counted_fail (Locals.uncounted_of_level hlevel)
  · split
    · exact counted_ok _ _
    · exact s.counted_refuse _ _ _

theorem counted_bindArgument (position : UInt64) (name : String) :
    (s.bindArgument position name).Counted Fault.counter? := by
  unfold bindArgument
  split
  · exact counted_fail rfl
  · refine (s.counted_declare name).andThen fun _ s => ?_
    split
    · rename_i hslot
      exact counted_fail (Locals.uncounted_of_slot hslot)
    · exact counted_noted rfl

theorem counted_returnLocal (name : String) : (s.returnLocal name).Counted Fault.counter? := by
  unfold returnLocal
  split
  · rename_i hlevel
    exact counted_fail (Locals.uncounted_of_level hlevel)
  · exact counted_ok _ _

omit [Level L] in
theorem counted_checkClose {σ : Type} (state : σ) :
    (Outcome.ofExcept state s.checkClose).Counted Fault.counter? :=
  Outcome.counted_ofExcept fun _ => uncounted_of_checkClose

omit [Level L] in
theorem counted_close : s.close.Counted Fault.counter? := by
  unfold close
  split
  · rename_i hcheck
    exact counted_fail (uncounted_of_checkClose hcheck)
  · exact counted_noted rfl

end Session

/-- **Every operation of a session is counted.** -/
theorem Operation.counted_perform (op : Operation L) (s : Session L) (heap : Heap L) :
    (op.perform s heap).Counted Fault.counter? := by
  cases op with
  | declare name => exact ((s.counted_declare name).mapState _).map _
  | read name => exact ((s.counted_read name).mapState _).map _
  | write name operand => exact ((s.counted_write name operand).mapState _).map _
  | label name level => exact ((s.counted_label name level).mapState _).map _
  | trackObject id => exact ((s.counted_trackObject heap id).mapState _).map _
  | readField id field => exact ((s.counted_readField heap id field).mapState _).map _
  | readElement id index => exact ((s.counted_readElement heap id index).mapState _).map _
  | writeField id field operand =>
      exact ((s.counted_writeField heap id field operand).mapState _).map _
  | writeElement id index operand =>
      exact ((s.counted_writeElement heap id index operand).mapState _).map _
  | labelField id field level =>
      exact ((s.counted_labelField heap id field level).mapState _).map _
  | enter tag condition => exact ((s.counted_enter tag condition).mapState _).map _
  | enterOn tag names => exact ((s.counted_enterOn tag names).mapState _).map _
  | exit tag => exact ((s.counted_exit tag).mapState _).map _
  | checkBelowTop name => exact ((s.counted_checkBelowTop name).mapState _).map _
  | checkSink name sink => exact ((s.counted_checkSink name sink).mapState _).map _
  | bindArgument position name =>
      exact ((s.counted_bindArgument position name).mapState _).map _
  | returnLocal name => exact ((s.counted_returnLocal name).mapState _).map _
  | checkClose => exact (s.counted_checkClose (s, heap)).map _
  | trackField | trackArray | newObject | newArray | returnConstant => rfl

/-! ## §4  Actions of a trace -/

namespace Session

variable (s : Session L) (heap : Heap L)

theorem counted_readOperand (operand : Operand L) :
    (s.readOperand heap operand).Counted Fault.counter? := by
  cases operand with
  | «local» name => exact s.counted_read name
  | field object name => exact s.counted_readField heap object name
  | element array index => exact s.counted_readElement heap array index
  | constant | literal => exact counted_ok _ _

theorem counted_joinOperands (level : L) (operands : List (Operand L)) :
    (s.joinOperands heap level operands).Counted Fault.counter? := by
  induction operands generalizing level with
  | nil => exact counted_ok _ _
  | cons operand operands ih => exact (s.counted_readOperand heap operand).andThen fun _ _ => ih _

theorem counted_argumentLevels (arguments : List (Operand L)) :
    (s.argumentLevels heap arguments).Counted Fault.counter? := by
  induction arguments with
  | nil => exact counted_ok _ _
  | cons argument arguments ih =>
      exact (s.counted_joinOperands heap _ [argument]).andThen fun level _ => ih.map (level :: ·)

end Session

/-- **Every action of a trace is counted.** -/
theorem Action.counted_perform (action : Action L) (s : Session L) (heap : Heap L) :
    (action.perform s heap).Counted Fault.counter? :=
  ((s.counted_joinOperands heap _ action.operands).mapState _).andThen fun level state =>
    (action.operation level).counted_perform state.1 state.2

end InfoFlow
