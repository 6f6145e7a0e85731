import InfoFlow.Proofs.Session.Conditions
import InfoFlow.Proofs.Session.SensitiveUpgrade

/-!
# A frame at its own level

A frame runs at the level at which it was called, its base, until it enters a branch that
raises the program counter. All its locals were declared at the base or above, so that at
the base none of them counts as existing before a branch: no write is refused there, and a
write is refused only inside a scope that raised the program counter above the declaration
of the local (`writes_at_base`).

An argument is bound at the level that the call has fixed, whatever the program counter is by
then and whatever the local holds. While the frame runs at its base, this is what a write
would do; in general it is so exactly if a write may commit this level (`bindings_at_base`).
Inside a branch an argument can put a local below the program counter, and raise one from
before the branch (`not_forall_admits`).
-/

namespace InfoFlow

open Level (join bottom)
open LawfulJoin

variable {L : Type}

/-! ## §1  The base of the program counter -/

namespace ProgramCounter

variable [Level L]

theorem Nested.base_le_level {pc : ProgramCounter L} (h : pc.Nested) : pc.base ≤ pc.level :=
  h pc.scopes [] (List.suffix_refl _) (List.nil_suffix)

/-- Where the program counter is not below `under`, although the base is, one of the open
scopes has raised it above `under`. -/
theorem exists_raising_scope {pc : ProgramCounter L} {under : L} (hbase : pc.base ≤ under)
    (h : ¬ pc.level ≤ under) :
    ∃ inner scope outer, pc.scopes = inner ++ scope :: outer ∧
      (pc.withScopes outer).level ≤ under ∧ ¬ scope.inside ≤ under := by
  obtain ⟨scopes, base, maxDepth⟩ := pc
  induction scopes with
  | nil => exact absurd hbase h
  | cons scope outer ih =>
      by_cases houter : (ProgramCounter.mk outer base maxDepth).level ≤ under
      · exact ⟨[], scope, outer, rfl, houter, h⟩
      · obtain ⟨inner, raising, outer', hscopes, hle, hnot⟩ := ih hbase houter
        exact ⟨scope :: inner, raising, outer', congrArg (scope :: ·) hscopes, hle, hnot⟩

end ProgramCounter

/-! ## §2  Declarations -/

section Opening

variable [Level L] {opening : Session L}

theorem JustOpened.find?_eq_none (h : JustOpened opening) (x : String) :
    opening.locals.find? x = none := by
  cases h <;> exact Locals.find?_empty x

theorem JustOpened.base_le_level [LawfulBottom L] (h : JustOpened opening) (heap : Heap L)
    (events : List (Event L)) :
    opening.pc.base ≤ (Event.after (opening, heap) events).1.pc.level := by
  have htracked := Tracked.after (opening, heap) (h.tracked "") events
  rw [← Event.base_after (opening, heap) events]
  exact htracked.nested.base_le_level

/-- **Every local is declared at the base or above**: at its first declaration, the program
counter was. -/
theorem JustOpened.base_le_declaredUnder [LawfulBottom L] (h : JustOpened opening) (heap : Heap L)
    (events : List (Event L)) {x : String} {slot : LocalLabel L}
    (hx : (Event.after (opening, heap) events).1.locals.find? x = some slot) :
    opening.pc.base ≤ slot.declaredUnder := by
  obtain ⟨done, declaring, rest, -, hunder⟩ := exists_firstDeclared (h.find?_eq_none x) hx
  rw [hunder]
  exact h.base_le_level heap done

end Opening

/-! ## §3  Writes -/

namespace Session

variable [Level L] {s : Session L} {name : String} {slot : LocalLabel L}

/-- A write to a declared local is refused by the rule on sensitive upgrades, or commits. -/
theorem write_of_found (found : s.locals.find? name = some slot) (operand : L) :
    (s.PreExisting slot ∧ ¬ join operand s.pc.level ≤ slot.level ∧
        (s.write name operand).result = .error (.illegalFlow (.local name)
          (.sensitiveUpgrade (Level.text (join operand s.pc.level)) (Level.text slot.level)
            (Level.text s.pc.level)))) ∨
      (s.PreExisting slot → join operand s.pc.level ≤ slot.level) ∧
        (s.write name operand).result = .ok (join operand s.pc.level) ∧
        (s.write name operand).state = { s with
          locals := s.locals.put name { slot with level := join operand s.pc.level } } := by
  have hslot := Locals.slot_eq_ok.2 found
  by_cases hrefused : s.PreExisting slot ∧ ¬ join operand s.pc.level ≤ slot.level
  · refine Or.inl ⟨hrefused.1, hrefused.2, ?_⟩
    simp only [write, hslot, if_pos hrefused]
    rfl
  · refine Or.inr ⟨fun hpre => ?_, ?_⟩
    · by_contra hraised
      exact hrefused ⟨hpre, hraised⟩
    · simp only [write, hslot, if_neg hrefused]
      exact ⟨rfl, rfl⟩

theorem write_of_absent (absent : s.locals.find? name = none) (operand : L) :
    (s.write name operand).result = .error (.unregistered (.local name)) := by
  simp only [write, Locals.slot_of_none absent]
  rfl

end Session

variable [Level L]

/-- **No write is refused at the base.** In whatever state a session has got into since it
was opened, its locals were declared at the base or above. When the program counter is at the
base, so when no scope is open, a write to a declared local commits the join of what is
written and the base. A write is an illegal flow only if one of the open scopes raised the
program counter from a level that flows to the local's declaration to one that does not, and
then the current one does not flow there either. -/
theorem JustOpened.writes_at_base [LawfulBottom L] {opening : Session L} (h : JustOpened opening)
    (heap : Heap L) (events : List (Event L)) :
    let s := (Event.after (opening, heap) events).1
    s.pc.base = opening.pc.base ∧ (s.pc.isEmpty = true → s.pc.level = s.pc.base) ∧
      ∀ x operand,
        (∀ slot, s.locals.find? x = some slot → s.pc.base ≤ slot.declaredUnder ∧
          (s.pc.level = s.pc.base →
            (s.write x operand).result = .ok (join operand s.pc.base) ∧
            (s.write x operand).state = { s with
              locals := s.locals.put x { slot with level := join operand s.pc.base } })) ∧
        ∀ target reason, (s.write x operand).result = .error (.illegalFlow target reason) →
          ∃ slot, s.locals.find? x = some slot ∧ ¬ s.pc.level ≤ slot.declaredUnder ∧
            ∃ inner scope outer, s.pc.scopes = inner ++ scope :: outer ∧
              (s.pc.withScopes outer).level ≤ slot.declaredUnder ∧
              ¬ scope.inside ≤ slot.declaredUnder := by
  intro s
  have hbase : s.pc.base = opening.pc.base := Event.base_after (opening, heap) events
  have hunder : ∀ {x slot}, s.locals.find? x = some slot → s.pc.base ≤ slot.declaredUnder := by
    intro x slot hx
    rw [hbase]
    exact h.base_le_declaredUnder heap events hx
  refine ⟨hbase, ?_, fun x operand => ⟨fun slot hx => ⟨hunder hx, ?_⟩, ?_⟩⟩
  · intro hempty
    unfold ProgramCounter.level
    rw [List.isEmpty_iff.1 hempty]
  · intro hlevel
    rcases Session.write_of_found hx operand with ⟨hpre, -, -⟩ | ⟨-, hresult, hstate⟩
    · exact absurd (hlevel ▸ hunder hx) hpre
    · rw [← hlevel]
      exact ⟨hresult, hstate⟩
  · intro target reason hrefused
    cases hx : s.locals.find? x with
    | none =>
        rw [Session.write_of_absent hx operand] at hrefused
        cases hrefused
    | some slot =>
        rcases Session.write_of_found hx operand with ⟨hpre, -, -⟩ | ⟨-, hresult, -⟩
        · exact ⟨slot, rfl, hpre, ProgramCounter.exists_raising_scope (hunder hx) hpre⟩
        · rw [hresult] at hrefused
          cases hrefused

section Witness

/-- A frame in a confidential branch. -/
def callerInBranch : Session ThreeLevel :=
  (Event.after ((Session.root {}).named "main", .empty) [.own (.enter ⟨"if"⟩ [.medium])]).1

/-- A local is declared, and another one in a secret branch. -/
def declaresTwice : List (Event ThreeLevel) :=
  [.own (.declare "x"), .own (.enter ⟨"inner"⟩ [.high]), .own (.declare "y")]

/-- A frame called from the confidential branch writes at its base until it enters the secret
one, where `x` must not be raised. -/
theorem writes_at_base_inCallee :
    let before := (Event.after (callerInBranch.call "f" [], .empty) [.own (.declare "x")]).1
    let inside := (Event.after (callerInBranch.call "f" [], .empty) declaresTwice).1
    (before.write "x" .low).result = .ok .medium ∧
      ∃ slot, inside.locals.find? "x" = some slot ∧ ¬ inside.pc.level ≤ slot.declaredUnder ∧
        ∃ inner scope outer, inside.pc.scopes = inner ++ scope :: outer ∧
          ¬ scope.inside ≤ slot.declaredUnder := by
  intro before inside
  have hopened : JustOpened (callerInBranch.call "f" []) := .call callerInBranch "f" []
  obtain ⟨-, hbase, hwrites⟩ := hopened.writes_at_base .empty [.own (.declare "x")]
  obtain ⟨-, hcommits⟩ := (hwrites "x" .low).1 ⟨.low, .medium⟩ (by rfl)
  have hrefused : (inside.write "x" .low).result = .error (.illegalFlow (.local "x")
      (.sensitiveUpgrade "HIGH" "LOW" "HIGH")) := by rfl
  obtain ⟨-, -, hinside⟩ := hopened.writes_at_base .empty declaresTwice
  obtain ⟨slot, hslot, hpc, inner, scope, outer, hscopes, -, hraised⟩ :=
    (hinside "x" .low).2 _ _ hrefused
  exact ⟨(hcommits (hbase rfl)).1, slot, hslot, hpc, inner, scope, outer, hscopes, hraised⟩

end Witness

/-! ## §4  Arguments -/

namespace Session

/-- A write may commit `level` to local `name`: it is at the program counter or above, and a
local from before the current branch is not raised to it. -/
def Admits (s : Session L) (name : String) (level : L) : Prop :=
  s.pc.level ≤ level ∧
    ∀ slot, s.locals.find? name = some slot → s.PreExisting slot → level ≤ slot.level

/-- Declare a local, if need be, and assign a value at `level` to it. -/
def declareAndWrite (s : Session L) (name : String) (level : L) : Outcome Fault (Session L) L :=
  (s.declare name).andThen fun _ s => s.write name level

variable {s : Session L} {position : UInt64} {name : String} {level : L}

/-- The labels of a local after it is declared, if need be. -/
def declared (s : Session L) (name : String) : LocalLabel L :=
  (s.locals.find? name).getD ⟨bottom, s.pc.level⟩

theorem find?_declared (s : Session L) (name : String) :
    (s.locals.declare name s.pc.level).find? name = some (s.declared name) := by
  rw [Locals.find?_declare, if_pos rfl]
  rfl

theorem bindArgument_of_passed (passed : s.arguments[position.toNat]? = some level)
    (name : String) :
    (s.bindArgument position name).result = .ok level ∧
      (s.bindArgument position name).state = { s with
        locals := (s.locals.declare name s.pc.level).put name { s.declared name with level } } := by
  obtain ⟨journal, hdeclare⟩ := Operation.exists_declare_eq s name
  have hslot := Locals.slot_eq_ok.2 (find?_declared s name)
  simp only [bindArgument, passed, hdeclare, Outcome.andThen, Outcome.noted, hslot]
  exact ⟨rfl, rfl⟩

theorem passed_of_bindArgument (h : (s.bindArgument position name).result = .ok level) :
    s.arguments[position.toNat]? = some level := by
  cases hpassed : s.arguments[position.toNat]? with
  | none =>
      simp only [bindArgument, hpassed] at h
      cases h
  | some passed =>
      rw [(bindArgument_of_passed hpassed name).1] at h
      cases h
      rfl

theorem declareAndWrite_eq (s : Session L) (name : String) (level : L) :
    let declared := { s with locals := s.locals.declare name s.pc.level }
    (s.declareAndWrite name level).result = (declared.write name level).result ∧
      (s.declareAndWrite name level).state = (declared.write name level).state := by
  obtain ⟨journal, hdeclare⟩ := Operation.exists_declare_eq s name
  unfold declareAndWrite
  rw [hdeclare]
  exact ⟨rfl, rfl⟩

/-- A local that counts as existing before the current branch was declared already. -/
theorem find?_of_preExisting [LawfulJoin L] (h : s.PreExisting (s.declared name)) :
    s.locals.find? name = some (s.declared name) := by
  cases hfound : s.locals.find? name with
  | some slot => simp [declared, hfound]
  | none =>
      have hcurrent : (s.declared name).declaredUnder = s.pc.level := by simp [declared, hfound]
      refine absurd ?_ h
      rw [hcurrent]
      exact le_refl _

/-- **To bind an argument is to write it, exactly if a write may commit its level as it is.** -/
theorem admits_iff [LawfulJoin L] (passed : s.arguments[position.toNat]? = some level) :
    s.Admits name level ↔
      (s.declareAndWrite name level).result = (s.bindArgument position name).result ∧
        (s.declareAndWrite name level).state = (s.bindArgument position name).state := by
  obtain ⟨hresult, hstate⟩ := bindArgument_of_passed passed name
  obtain ⟨hwresult, hwstate⟩ := declareAndWrite_eq s name level
  rw [hresult, hstate, hwresult, hwstate]
  have hfound : { s with locals := s.locals.declare name s.pc.level }.locals.find? name =
      some (s.declared name) := find?_declared s name
  rcases write_of_found hfound level with ⟨hpre, hraised, hrefused⟩ | ⟨hadmitted, hok, hcommitted⟩
  · rw [hrefused]
    constructor
    · rintro ⟨hpc, hlevel⟩
      rw [join_eq_left.2 hpc] at hraised
      exact absurd (hlevel _ (find?_of_preExisting hpre) hpre) hraised
    · rintro ⟨hsame, -⟩
      cases hsame
  · rw [hok, hcommitted]
    constructor
    · rintro ⟨hpc, -⟩
      rw [join_eq_left.2 hpc]
      exact ⟨rfl, rfl⟩
    · rintro ⟨hsame, -⟩
      have hrequired : join level s.pc.level = level := Except.ok.inj hsame
      refine ⟨join_eq_left.1 hrequired, fun slot hslot hpre => ?_⟩
      have hdeclared : s.declared name = slot := by simp [declared, hslot]
      rw [hrequired, hdeclared] at hadmitted
      exact hadmitted hpre

end Session

/-- **Arguments are bound as they are written, while a frame runs at its base.** In whatever
state a session has got into since it was opened, an argument that is bound leaves its local
at the level of the argument, which is the base or above. This is what a write would do if
and only if a write may commit this level; and it may, when the program counter is at the
base. -/
theorem JustOpened.bindings_at_base [LawfulBottom L] {opening : Session L} (h : JustOpened opening)
    (heap : Heap L) (events : List (Event L)) :
    let s := (Event.after (opening, heap) events).1
    ∀ position name level, (s.bindArgument position name).result = .ok level →
      s.arguments[position.toNat]? = some level ∧ s.pc.base ≤ level ∧
        (∃ slot, (s.bindArgument position name).state.locals.find? name = some slot ∧
          slot.level = level) ∧
        (s.Admits name level ↔
          (s.declareAndWrite name level).result = (s.bindArgument position name).result ∧
            (s.declareAndWrite name level).state = (s.bindArgument position name).state) ∧
        (s.pc.level = s.pc.base → s.Admits name level) := by
  intro s position name level hbound
  have hpassed := Session.passed_of_bindArgument hbound
  have harguments := (Tracked.after (opening, heap) (h.tracked "") events).arguments
  have hlevel : s.pc.base ≤ level := harguments level (List.mem_of_getElem? hpassed)
  refine ⟨hpassed, hlevel, ?_, Session.admits_iff hpassed, fun hbase => ⟨?_, ?_⟩⟩
  · rw [(Session.bindArgument_of_passed hpassed name).2]
    exact ⟨_, Locals.find?_put_self _ _ _, rfl⟩
  · rw [hbase]
    exact hlevel
  · intro slot hslot hpre
    have hunder := h.base_le_declaredUnder heap events hslot
    rw [← Event.base_after (opening, heap) events] at hunder
    exact absurd (hbase ▸ hunder) hpre

section Witness

/-- A frame called from a confidential branch gets a public argument, raised to the program
counter of the call, and binds it to a local that it had declared. -/
theorem bindings_at_base_inCallee :
    let s := (Event.after (callerInBranch.call "f" [.low], .empty) [.own (.declare "x")]).1
    (s.bindArgument 0 "x").result = .ok .medium ∧ s.pc.level ≤ .medium ∧
      (s.declareAndWrite "x" .medium).result = (s.bindArgument 0 "x").result := by
  intro s
  have hopened : JustOpened (callerInBranch.call "f" [.low]) := .call callerInBranch "f" [.low]
  have hbound : (s.bindArgument 0 "x").result = .ok .medium := by rfl
  obtain ⟨-, -, -, hwritten, hbase⟩ :=
    hopened.bindings_at_base .empty [.own (.declare "x")] 0 "x" .medium hbound
  have hadmits := hbase rfl
  exact ⟨hbound, hadmits.1, (hwritten.1 hadmits).1⟩

/-- A frame is called with a public and a secret argument. -/
def calledWithSecret : Session TwoLevel := (Session.root {}).call "f" [.low, .high]

/-- It declares a local and enters a branch on a secret before it binds them. -/
def bindsLate : List (Event TwoLevel) := [.own (.declare "y"), .own (.enter ⟨"if"⟩ [.high])]

/-- **Inside a branch an argument is not bound as it would be written.** It can put a local
below the program counter, and it can raise a local from before the branch. -/
theorem not_forall_admits :
    (¬ ∀ (opening : Session TwoLevel) (heap : Heap TwoLevel) (events : List (Event TwoLevel))
        (position : UInt64) (name : String) (level : TwoLevel), JustOpened opening →
      ((Event.after (opening, heap) events).1.bindArgument position name).result = .ok level →
      (Event.after (opening, heap) events).1.pc.level ≤ level) ∧
    ¬ ∀ (opening : Session TwoLevel) (heap : Heap TwoLevel) (events : List (Event TwoLevel))
        (position : UInt64) (name : String) (level : TwoLevel) (slot : LocalLabel TwoLevel),
      JustOpened opening →
      ((Event.after (opening, heap) events).1.bindArgument position name).result = .ok level →
      (Event.after (opening, heap) events).1.locals.find? name = some slot →
      ¬ (Event.after (opening, heap) events).1.pc.level ≤ slot.declaredUnder →
      level ≤ slot.level := by
  have hopened : JustOpened calledWithSecret := JustOpened.call _ _ _
  constructor
  · intro h
    have hbelow := h calledWithSecret .empty bindsLate 0 "x" .low hopened (by rfl)
    exact absurd hbelow (by decide)
  · intro h
    have hraised := h calledWithSecret .empty bindsLate 1 "y" .high ⟨.low, .low⟩ hopened (by rfl)
      (by rfl) (by decide)
    exact absurd hraised (by decide)

end Witness

end InfoFlow
