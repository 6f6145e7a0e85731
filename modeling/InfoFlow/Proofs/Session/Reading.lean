import InfoFlow.Proofs.Session.Rules
import InfoFlow.Session.Action

/-!
# Reading operands

Reading changes nothing, so all there is to say of it is the level it finds. An
operand has a level or names what was never registered (`levelOf`); the operands
of a value are read one after the other, and the first that has no level ends the
reading. No reading is an illegal flow.
-/

namespace InfoFlow

open Level (join bottom)

/-- The place that has to be registered for an operand. -/
def Operand.place? {L : Type} : Operand L → Option Place
  | .local name => some (.local name)
  | .field object name => some (.field object name)
  | .element array index => some (.element array (indexKey index))
  | .constant => none
  | .literal _ => none

namespace Session

variable {L : Type} [Level L]

/-! ## §1  The level of an operand -/

/-- The level of an operand, or what was never registered. -/
def levelOf (s : Session L) (heap : Heap L) : Operand L → Except Fault L
  | .local name => s.locals.level name
  | .field object name => heap.fieldLevel object name
  | .element array index => heap.elementLevel array index
  | .constant => .ok bottom
  | .literal level => .ok level

variable {s : Session L} {heap : Heap L}

@[simp] theorem result_read (s : Session L) (name : String) :
    (s.read name).result = s.locals.level name := by
  unfold read
  cases s.locals.level name <;> rfl

@[simp] theorem result_readOperand (s : Session L) (heap : Heap L) (operand : Operand L) :
    (s.readOperand heap operand).result = s.levelOf heap operand := by
  cases operand with
  | «local» name => exact result_read s name
  | field object name =>
      show (s.readField heap object name).result = heap.fieldLevel object name
      unfold readField
      cases heap.fieldLevel object name <;> rfl
  | element array index =>
      show (s.readElement heap array index).result = heap.elementLevel array index
      unfold readElement
      cases heap.elementLevel array index <;> rfl
  | constant => rfl
  | literal level => rfl

theorem result_joinOperands_cons (s : Session L) (heap : Heap L) (level : L) (operand : Operand L)
    (operands : List (Operand L)) :
    (s.joinOperands heap level (operand :: operands)).result =
      (s.levelOf heap operand).bind fun read =>
        (s.joinOperands heap (join level read) operands).result := by
  rw [← result_readOperand]
  exact Outcome.result_andThen _ _

theorem result_argumentLevels_cons (s : Session L) (heap : Heap L) (argument : Operand L)
    (arguments : List (Operand L)) :
    (s.argumentLevels heap (argument :: arguments)).result =
      (s.operandLevel heap [argument]).result.bind fun level =>
        (s.argumentLevels heap arguments).result.map (level :: ·) :=
  Outcome.result_andThen _ _

theorem result_readAll_cons (s : Session L) (name : String) (names : List String) :
    (s.readAll (name :: names)).result =
      (s.locals.level name).bind fun level => (s.readAll names).result.map (level :: ·) := by
  rw [← result_read]
  exact Outcome.result_andThen _ _

/-- What is read depends on the locals and the heap only. -/
theorem joinOperands_congr {t : Session L} (hlocals : t.locals = s.locals) (heap : Heap L)
    (level : L) (operands : List (Operand L)) :
    (t.joinOperands heap level operands).result = (s.joinOperands heap level operands).result := by
  have hlevel : ∀ operand, t.levelOf heap operand = s.levelOf heap operand := by
    intro operand
    cases operand with
    | «local» name => exact congrArg (·.level name) hlocals
    | _ => rfl
  induction operands generalizing level with
  | nil => rfl
  | cons operand operands ih =>
      rw [result_joinOperands_cons, result_joinOperands_cons, hlevel]
      simp only [ih]

theorem argumentLevels_congr {t : Session L} (hlocals : t.locals = s.locals) (heap : Heap L)
    (arguments : List (Operand L)) :
    (t.argumentLevels heap arguments).result = (s.argumentLevels heap arguments).result := by
  induction arguments with
  | nil => rfl
  | cons argument arguments ih =>
      have hargument : (t.operandLevel heap [argument]).result =
          (s.operandLevel heap [argument]).result :=
        joinOperands_congr hlocals heap bottom [argument]
      rw [result_argumentLevels_cons, result_argumentLevels_cons, hargument, ih]

/-! ## §2  What cannot be read -/

omit [Level L] in
/-- A local without a level was never declared. -/
theorem unregistered_of_level {locals : Locals L} {name : String} {e : Fault}
    (h : locals.level name = .error e) :
    locals.find? name = none ∧ e = .unregistered (.local name) := by
  cases hfound : locals.find? name with
  | none =>
      rw [Locals.level_of_none hfound] at h
      cases h
      exact ⟨rfl, rfl⟩
  | some slot =>
      rw [Locals.level_eq_ok.2 ⟨slot, hfound, rfl⟩] at h
      cases h

omit [Level L] in
theorem not_violation_of_level {locals : Locals L} {name : String} {e : Fault}
    (h : locals.level name = .error e) : e.isViolation = false := by
  rw [(unregistered_of_level h).2]
  rfl

/-- The fault of an operand without a level names its place. -/
theorem unregistered_of_levelOf {operand : Operand L} {e : Fault}
    (h : s.levelOf heap operand = .error e) :
    ∃ place, operand.place? = some place ∧ e = .unregistered place := by
  have hslot : ∀ {place : Place} {level? : Option L},
      Heap.orUnknown place level? = .error e → e = .unregistered place := by
    intro place level? hunknown
    cases level? with
    | none =>
        cases hunknown
        rfl
    | some level => cases hunknown
  cases operand with
  | «local» name => exact ⟨.local name, rfl, (unregistered_of_level h).2⟩
  | field object name => exact ⟨.field object name, rfl, hslot h⟩
  | element array index => exact ⟨.element array (indexKey index), rfl, hslot h⟩
  | constant => cases h
  | literal level => cases h

theorem not_violation_of_levelOf {operand : Operand L} {e : Fault}
    (h : s.levelOf heap operand = .error e) : e.isViolation = false := by
  obtain ⟨place, -, rfl⟩ := unregistered_of_levelOf h
  rfl

theorem not_violation_of_joinOperands {operands : List (Operand L)} {level : L} {e : Fault}
    (h : (s.joinOperands heap level operands).result = .error e) : e.isViolation = false := by
  induction operands generalizing level with
  | nil => cases h
  | cons operand operands ih =>
      rcases Outcome.result_andThen_eq_error.1 h with hread | ⟨read, -, hrest⟩
      · rw [result_readOperand] at hread
        exact not_violation_of_levelOf hread
      · exact ih hrest

theorem not_violation_of_argumentLevels {arguments : List (Operand L)} {e : Fault}
    (h : (s.argumentLevels heap arguments).result = .error e) : e.isViolation = false := by
  induction arguments with
  | nil => cases h
  | cons argument arguments ih =>
      rcases Outcome.result_andThen_eq_error.1 h with hread | ⟨level, -, hrest⟩
      · exact not_violation_of_joinOperands hread
      · exact ih (Outcome.result_map_eq_error.1 hrest)

theorem not_violation_of_readAll {names : List String} {e : Fault}
    (h : (s.readAll names).result = .error e) : e.isViolation = false := by
  induction names with
  | nil => cases h
  | cons name names ih =>
      rcases Outcome.result_andThen_eq_error.1 h with hread | ⟨level, -, hrest⟩
      · rw [result_read] at hread
        exact not_violation_of_level hread
      · exact ih (Outcome.result_map_eq_error.1 hrest)

end Session

/-! ## §3  Illegal flows -/

namespace Operation

variable {L : Type} {s : Session L} {heap : Heap L} {op : Operation L} {e : Fault}

theorem not_violation_of_leave {pc : ProgramCounter L} {tag : Tag} (h : pc.leave tag = .error e) :
    e.isViolation = false := by
  unfold ProgramCounter.leave at h
  split at h
  · cases h
    rfl
  · split at h
    · cases h
    · cases h
      rfl

theorem not_violation_of_checkClose (h : s.checkClose = .error e) : e.isViolation = false := by
  unfold Session.checkClose at h
  split at h
  · cases h
    rfl
  · cases h

/-- **An illegal flow is one of a declared local**: nothing else that an operation
fails with is a violation. -/
theorem Fails.declared [Level L] (h : Fails s heap op e) (hviolation : e.isViolation = true) :
    ∃ name slot, s.locals.find? name = some slot := by
  cases h with
  | write found preExisting raised => exact ⟨_, _, found⟩
  | checkBelowTop found top => exact ⟨_, _, found⟩
  | checkSink found above => exact ⟨_, _, found⟩
  | unread unread =>
      rw [Session.not_violation_of_readAll unread] at hviolation
      cases hviolation
  | exit left =>
      rw [not_violation_of_leave left] at hviolation
      cases hviolation
  | checkClose unbalanced =>
      rw [not_violation_of_checkClose unbalanced] at hviolation
      cases hviolation
  | _ => cases hviolation

end Operation

end InfoFlow
