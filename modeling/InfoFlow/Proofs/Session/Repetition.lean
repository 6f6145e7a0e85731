import InfoFlow.Proofs.Session.Commit
import InfoFlow.Proofs.Session.Operands

/-!
# Repeating an action

An action that is carried out twice in a row has no more effect than once, unless it is the
beginning or the end of a branch. This is not plain where a place is computed from itself,
under its own name or as the element and the field of one record: the second time its operands
are read, they have changed. They have not changed much (`Succeeds.levelOf_again`): what the
action has assigned now has the level that was committed, the join of the operands and the
program counter, and everything else that was read is as before. So the same level is
committed again.
-/

namespace InfoFlow

open Level (join bottom)
open LawfulJoin

variable {L : Type}

/-! ## §1  Operands and the places they are read from -/

/-- Every action but the beginning and the end of a branch. -/
def Action.Repeatable : Action L → Prop
  | enter _ _ => False
  | exit _ => False
  | _ => True

/-- Where an operand is read. -/
def Operand.target? : Operand L → Option Target
  | .local name => some (.local name)
  | field object name => some (.slot object name)
  | element array index => some (.slot array (indexKey index))
  | constant => none
  | literal _ => none

namespace Session

variable [Level L]

theorem levelOf_eq_ok_iff {s : Session L} {heap : Heap L} {operand : Operand L} {target : Target}
    (h : operand.target? = some target) {read : L} :
    s.levelOf heap operand = .ok read ↔ s.levelAt? heap target = some read := by
  have hslot : ∀ {place : Place} {level? : Option L},
      Heap.orUnknown place level? = .ok read ↔ level? = some read := by
    intro place level?
    cases level? <;> simp [Heap.orUnknown]
  cases operand with
  | «local» name =>
      cases h
      show s.locals.level name = _ ↔ (s.locals.find? name).map (·.level) = _
      rw [Locals.level_eq_ok, Option.map_eq_some_iff]
  | field object name =>
      cases h
      exact hslot
  | element array index =>
      cases h
      exact hslot
  | constant => cases h
  | literal level => cases h

/-- An operand that is read nowhere has one level for all sessions. -/
theorem levelOf_of_target?_eq_none {operand : Operand L} (h : operand.target? = none)
    (s s' : Session L) (heap heap' : Heap L) :
    s'.levelOf heap' operand = s.levelOf heap operand := by
  cases operand with
  | constant => rfl
  | literal level => rfl
  | _ => cases h

end Session

/-! ## §2  Reading the operands again -/

namespace Operation

open LawfulBottom

variable [Level L] {s s' : Session L} {heap heap' : Heap L} {action : Action L} {level : L}
  {reply : Reply L}

/-- What is computed from operands is committed, joined with the program counter. -/
theorem Succeeds.assigned_eq_join [LawfulJoin L] (hrepeatable : action.Repeatable)
    (h : Succeeds s heap (action.operation level) reply s' heap') (hoperands : action.operands ≠ [])
    {target : Target} (hassigned : (action.operation level).assigned? = some target) :
    s'.levelAt? heap' target = some (join level s.pc.level) := by
  have hreply : (action.operation level).target? = some target ∧
      reply = .level (join level s.pc.level) := by
    cases action with
    | write name operands =>
        cases h
        exact ⟨hassigned, rfl⟩
    | writeField object field operands =>
        cases h
        exact ⟨hassigned, rfl⟩
    | writeElement array index operands =>
        cases h
        exact ⟨hassigned, rfl⟩
    | enter tag condition => exact hrepeatable.elim
    | _ => exact absurd rfl hoperands
  obtain ⟨committed, hcommitted, hlevelAt, -⟩ := h.commits hreply.1
  rw [hreply.2, Reply.level.injEq] at hcommitted
  rw [hlevelAt, hcommitted]

/-- **Every operand can be read again**, at its level before or at the level committed. -/
theorem Succeeds.levelOf_again [LawfulJoin L] (hrepeatable : action.Repeatable)
    (h : Succeeds s heap (action.operation level) reply s' heap') {operand : Operand L}
    (hmem : operand ∈ action.operands) {read : L} (hread : s.levelOf heap operand = .ok read) :
    s'.levelOf heap' operand = .ok read ∨
      s'.levelOf heap' operand = .ok (join level s.pc.level) := by
  cases htarget : operand.target? with
  | none =>
      rw [Session.levelOf_of_target?_eq_none htarget s s' heap heap']
      exact Or.inl hread
  | some target =>
      by_cases hassigned : (action.operation level).assigned? = some target
      · -- the action is computed from what it assigns
        exact Or.inr ((Session.levelOf_eq_ok_iff htarget).2
          (h.assigned_eq_join hrepeatable (List.ne_nil_of_mem hmem) hassigned))
      · exact Or.inl ((Session.levelOf_eq_ok_iff htarget).2
          (h.levelAt?_of_ne hassigned ((Session.levelOf_eq_ok_iff htarget).1 hread)))

variable [LawfulBottom L]

/-- **The level of the operands may have risen, but not above what was committed.** -/
theorem Succeeds.operandLevel_again (hrepeatable : action.Repeatable)
    (hread : (s.operandLevel heap action.operands).result = .ok level)
    (h : Succeeds s heap (action.operation level) reply s' heap') :
    ∃ level', (s'.operandLevel heap' action.operands).result = .ok level' ∧
      join level' s.pc.level = join level s.pc.level := by
  have hjoins := Session.operandLevel_eq_ok_iff.1 hread
  have hreadable : ∀ operand ∈ action.operands, ∃ read, s'.levelOf heap' operand = .ok read := by
    intro operand hmem
    obtain ⟨read, hlevel⟩ := hjoins.readable operand hmem
    rcases h.levelOf_again hrepeatable hmem hlevel with hsame | hraised
    · exact ⟨read, hsame⟩
    · exact ⟨_, hraised⟩
  obtain ⟨level', hread'⟩ := Session.exists_joinOperands hreadable bottom
  have hjoins' := Session.operandLevel_eq_ok_iff.1 hread'
  have hle : level ≤ level' := by
    rw [hjoins.le_iff]
    intro operand hmem read hlevel
    rcases h.levelOf_again hrepeatable hmem hlevel with hsame | hraised
    · exact hjoins'.le hmem hsame
    · exact le_trans (hjoins.le hmem hlevel)
        (le_trans (left_le_join level s.pc.level) (hjoins'.le hmem hraised))
  have hge : level' ≤ join level s.pc.level := by
    rw [hjoins'.le_iff]
    intro operand hmem read' hlevel'
    obtain ⟨read, hlevel⟩ := hjoins.readable operand hmem
    rcases h.levelOf_again hrepeatable hmem hlevel with hsame | hraised
    · obtain rfl : read = read' := Except.ok.inj (hsame.symm.trans hlevel')
      exact le_join_of_le_left _ (hjoins.le hmem hlevel)
    · obtain rfl : join level s.pc.level = read' := Except.ok.inj (hraised.symm.trans hlevel')
      exact le_refl _
  refine ⟨level', hread', le_antisymm ?_ ?_⟩
  · exact join_le hge (right_le_join _ _)
  · exact join_le (le_join_of_le_left _ hle) (right_le_join _ _)

/-! ## §3  Operations that find what they would leave -/

section Settled

omit [LawfulBottom L]

variable {name : String} {slot : LocalLabel L} {id : Handle} {operand : L}

theorem declare_settled (found : s.locals.find? name = some slot) :
    Succeeds s heap (.declare name) .done s heap := by
  have hrule : Succeeds s heap (.declare name) .done _ heap := .declare name
  rwa [Locals.declare_of_some found] at hrule

/-- A local may always be given the level that it has. -/
theorem write_settled [LawfulJoin L] (found : s.locals.find? name = some slot)
    (hlevel : slot.level = join operand s.pc.level) :
    Succeeds s heap (.write name operand) (.level (join operand s.pc.level)) s heap := by
  have hadmitted : s.PreExisting slot → join operand s.pc.level ≤ slot.level := by
    intro _
    rw [hlevel]
    exact le_refl _
  have hrule : Succeeds s heap (.write name operand) _ _ heap := .write found hadmitted
  rwa [← hlevel, Locals.put_self found, hlevel] at hrule

theorem label_settled (found : s.locals.find? name = some slot) (hlevel : slot.level = level) :
    Succeeds s heap (.label name level) .done s heap := by
  have hrule : Succeeds s heap (.label name level) .done _ heap := .label found
  rwa [← hlevel, Locals.put_self found, hlevel] at hrule

theorem bindArgument_settled {position : UInt64}
    (passed : s.arguments[position.toNat]? = some level)
    (found : s.locals.find? name = some slot) (hlevel : slot.level = level) :
    Succeeds s heap (.bindArgument position name) (.level level) s heap := by
  have hdeclared := Locals.declare_of_some found s.pc.level
  have hrule : Succeeds s heap (.bindArgument position name) _ _ heap :=
    .bindArgument passed (hdeclared.symm ▸ found)
  rwa [hdeclared, ← hlevel, Locals.put_self found, hlevel] at hrule

omit [Level L] in
/-- Registering the slot first, as the policy may ask for, does not matter. -/
theorem setSlot?_settled {tracked : Heap L} {key : String}
    (found : heap.level? id key = some level) (htracked : tracked = heap) :
    (if s.policy.autoRegister then tracked else heap).setSlot? id key level =
      some (level, heap) := by
  rw [htracked, ite_self, Heap.setSlot?_self found]

theorem writeField_settled {field : String}
    (found : heap.level? id field = some (join operand s.pc.level)) :
    Succeeds s heap (.writeField id field operand) (.level (join operand s.pc.level)) s heap :=
  .writeField (setSlot?_settled found (Heap.trackField_of_some found))

theorem labelField_settled {field : String} (found : heap.level? id field = some level) :
    Succeeds s heap (.labelField id field level) .done s heap :=
  .labelField (setSlot?_settled found (Heap.trackField_of_some found))

theorem writeElement_settled {index : UInt64}
    (found : heap.level? id (indexKey index) = some (join operand s.pc.level)) :
    Succeeds s heap (.writeElement id index operand) (.level (join operand s.pc.level)) s heap :=
  .writeElement (setSlot?_settled found (Heap.trackElement_of_some found))

end Settled

/-! ## §4  Meeting the rule again -/

omit [LawfulBottom L] in
/-- **An action that has met its rule meets it again and changes nothing**, if the level of its
operands comes to the same at the program counter. -/
theorem Succeeds.again [LawfulJoin L] {level' : L} (hrepeatable : action.Repeatable)
    (h : Succeeds s heap (action.operation level) reply s' heap')
    (hjoin : join level' s.pc.level = join level s.pc.level) :
    Succeeds s' heap' (action.operation level') reply s' heap' := by
  cases action with
  | declare name =>
      cases h
      exact declare_settled (Locals.find?_declare_self s.locals name s.pc.level)
  | write name operands =>
      cases h with
      | @write _ _ slot found admitted =>
          rw [← hjoin]
          exact write_settled (Locals.find?_put_self _ _ _) rfl
  | writeField object field operands =>
      cases h with
      | writeField set =>
          rw [← hjoin] at set ⊢
          exact writeField_settled (Heap.level?_setSlot?_self set)
  | writeElement array index operands =>
      cases h with
      | writeElement set =>
          rw [← hjoin] at set ⊢
          exact writeElement_settled (Heap.level?_setSlot?_self set)
  | enter tag condition => exact hrepeatable.elim
  | exit tag => exact hrepeatable.elim
  | checkBelowTop name =>
      cases h with
      | checkBelowTop found below => exact .checkBelowTop found below
  | checkSink name sink =>
      cases h with
      | checkSink found below => exact .checkSink found below
  | trackObject object =>
      cases h
      have hrule : Succeeds s (heap.trackObject object) (.trackObject object) .done s _ :=
        .trackObject object
      rwa [Heap.trackObject_trackObject] at hrule
  | trackField object field =>
      cases h
      have hlevel := heap.level?_trackField object field object field
      rw [if_pos ⟨rfl, rfl⟩] at hlevel
      have hrule : Succeeds s (heap.trackField object field) (.trackField object field) .done s _ :=
        .trackField object field
      rwa [Heap.trackField_of_some hlevel] at hrule
  | trackArray array length =>
      cases h
      have hrule : Succeeds s (heap.trackArray array length) (.trackArray array length) .done s _ :=
        .trackArray array length
      rwa [Heap.trackArray_trackArray] at hrule
  | label name level =>
      cases h
      exact label_settled (Locals.find?_put_self _ _ _) rfl
  | labelField object field level =>
      cases h with
      | labelField set => exact labelField_settled (Heap.level?_setSlot?_self set)
  | bindArgument position name =>
      cases h with
      | bindArgument passed found =>
          exact bindArgument_settled passed (Locals.find?_put_self _ _ _) rfl
  | returnLocal name =>
      cases h with
      | returnLocal found => exact .returnLocal found
  | returnConstant =>
      cases h
      exact .returnConstant

end Operation

end InfoFlow
