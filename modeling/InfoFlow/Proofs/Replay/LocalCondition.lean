import Mathlib.Data.List.Forall2
import InfoFlow.Level.Chain
import InfoFlow.Proofs.Replay.Rules
import InfoFlow.Proofs.Session.Reading

/-!
# Branches on locals

A session can be told to enter a branch whose condition reads some locals, and a trace can
record a branch with these locals as the operands of its condition. The session collects the
levels of the locals and joins them; the replay joins them one by one as it reads them, and
enters a branch on the one level that comes of it. Both do the same (`branch_on_locals`).
-/

namespace InfoFlow

open Level (join joinAll bottom)
open LawfulJoin LawfulBottom

namespace Session

variable {L : Type}

/-! ## §1  Reading locals -/

/-- The first of these locals that is not declared. -/
def firstUndeclared? (s : Session L) (names : List String) : Option String :=
  names.find? fun name => !s.locals.contains name

/-- These are the levels of these locals. -/
def Labels (s : Session L) (names : List String) (levels : List L) : Prop :=
  List.Forall₂ (fun name level => s.locals.level name = .ok level) names levels

variable [Level L] {s : Session L} {heap : Heap L} {names : List String} {tag : Tag}

/-- **Reading is the same** whether the levels are joined on the way or at the end. -/
theorem joinOperands_locals (s : Session L) (heap : Heap L) (names : List String) (level : L) :
    s.joinOperands heap level (names.map .local) = (s.readAll names).map (·.foldl join level) := by
  induction names generalizing level with
  | nil => rfl
  | cons name names ih =>
      show ((s.read name).andThen fun read _ =>
          s.joinOperands heap (join level read) (names.map .local)) =
        ((s.read name).andThen fun read _ => (s.readAll names).map (read :: ·)).map _
      simp only [ih, Outcome.map_andThen, Outcome.map_map, List.foldl_cons]

omit [Level L] in
theorem firstUndeclared?_cons_of_some {name : String} {slot : LocalLabel L}
    (h : s.locals.find? name = some slot) :
    s.firstUndeclared? (name :: names) = s.firstUndeclared? names := by
  have hdeclared : s.locals.contains name = true := Locals.contains_iff.2 ⟨slot, h⟩
  simp [firstUndeclared?, hdeclared]

omit [Level L] in
theorem firstUndeclared?_cons_of_none {name : String} (h : s.locals.find? name = none) :
    s.firstUndeclared? (name :: names) = some name := by
  have hundeclared : ¬ s.locals.contains name = true := by
    rw [Locals.contains_iff, h]
    rintro ⟨slot, ⟨⟩⟩
  simp [firstUndeclared?, hundeclared]

/-- Reading ends at the first local that is not declared. -/
theorem readAll_of_undeclared {name : String} (h : s.firstUndeclared? names = some name) :
    (s.readAll names).result = .error (.unregistered (.local name)) := by
  induction names with
  | nil => cases h
  | cons first names ih =>
      rw [result_readAll_cons]
      cases hfound : s.locals.find? first with
      | none =>
          rw [firstUndeclared?_cons_of_none hfound] at h
          cases h
          rw [Locals.level_of_none hfound]
          rfl
      | some slot =>
          rw [firstUndeclared?_cons_of_some hfound] at h
          rw [Locals.level_eq_ok.2 ⟨slot, hfound, rfl⟩]
          show (s.readAll names).result.map _ = _
          rw [ih h]
          rfl

theorem exists_readAll (h : s.firstUndeclared? names = none) :
    ∃ levels, (s.readAll names).result = .ok levels ∧ s.Labels names levels := by
  induction names with
  | nil => exact ⟨[], rfl, .nil⟩
  | cons name names ih =>
      rw [result_readAll_cons]
      cases hfound : s.locals.find? name with
      | none =>
          rw [firstUndeclared?_cons_of_none hfound] at h
          cases h
      | some slot =>
          rw [firstUndeclared?_cons_of_some hfound] at h
          obtain ⟨levels, hread, hlabels⟩ := ih h
          have hlevel := Locals.level_eq_ok.2 ⟨slot, hfound, rfl⟩
          refine ⟨slot.level :: levels, ?_, .cons hlevel hlabels⟩
          rw [hlevel, hread]
          rfl

/-! ## §2  Entering a branch -/

/-- `BranchesOn s tag names result s'`: what comes of entering a branch on these locals, and
the session after it. -/
inductive BranchesOn (s : Session L) (tag : Tag) (names : List String) :
    Except Fault L → Session L → Prop
  | undeclared {name : String} (first : s.firstUndeclared? names = some name) :
      BranchesOn s tag names (.error (.unregistered (.local name))) s
  | tooDeep {limit : UInt64} (declared : s.firstUndeclared? names = none)
      (full : s.pc.limitReached? = some limit) : BranchesOn s tag names (.error (.tooDeep limit)) s
  | enters {levels : List L} {level : L} (labels : s.Labels names levels)
      (room : s.pc.limitReached? = none) (joined : level = join (joinAll levels) s.pc.level) :
      BranchesOn s tag names (.ok level)
        { s with pc := { s.pc with scopes := ⟨tag, level, level⟩ :: s.pc.scopes } }

theorem branchesOn [LawfulJoin L] (s : Session L) (tag : Tag) (names : List String) :
    s.BranchesOn tag names (s.enterOn tag names).result (s.enterOn tag names).state := by
  unfold enterOn Outcome.andThen
  rw [Outcome.result_mapState]
  cases hfirst : s.firstUndeclared? names with
  | some name =>
      rw [readAll_of_undeclared hfirst]
      exact .undeclared hfirst
  | none =>
      obtain ⟨levels, hread, hlabels⟩ := exists_readAll hfirst
      rw [hread]
      show s.BranchesOn tag names (s.enter tag levels).result (s.enter tag levels).state
      unfold enter ProgramCounter.enter
      cases hlimit : s.pc.limitReached? with
      | some limit => exact .tooDeep hfirst hlimit
      | none =>
          -- the program counter inside is at the level of the condition, which is above it
          have hinside : join s.pc.level (join (joinAll levels) s.pc.level) =
              join (joinAll levels) s.pc.level := join_eq_right.2 (right_le_join _ _)
          simp only [hinside]
          exact .enters hlabels hlimit rfl

/-- A condition of one level is at this level. -/
theorem enter_joinAll [LawfulBottom L] (s : Session L) (tag : Tag) (levels : List L) :
    s.enter tag [joinAll levels] = s.enter tag levels := by
  have hone : joinAll [joinAll levels] = joinAll levels := bottom_join _
  unfold enter
  rw [hone]

/-- **The action enters the branch that the session would enter**, with the same notes in the
journal. -/
theorem perform_enter_locals [LawfulBottom L] (s : Session L) (heap : Heap L) (tag : Tag)
    (names : List String) :
    (Action.enter tag (names.map .local)).perform s heap =
      (Operation.enterOn tag names).perform s heap := by
  have hread : s.operandLevel heap (names.map .local) = (s.readAll names).map joinAll :=
    joinOperands_locals s heap names bottom
  unfold Action.perform
  rw [Action.operands, hread]
  show _ = Operation.onSession heap .level
    (((s.readAll names).mapState fun _ => s).andThen fun levels s => s.enter tag levels)
  cases s.readAll names with
  | mk result state journal =>
      cases result with
      | error e => rfl
      | ok levels =>
          show (Operation.onSession heap .level (s.enter tag [joinAll levels])).since journal =
            (Operation.onSession heap .level (s.enter tag levels)).since journal
          rw [enter_joinAll]

end Session

/-! ## §3  Replaying the branch -/

namespace Replay

variable {L : Type} [Level L] [LawfulBottom L]

/-- **The two ways to branch on locals agree.** -/
theorem branch_on_locals (s : Session L) (tag : Tag) (names : List String) :
    s.BranchesOn tag names (s.enterOn tag names).result (s.enterOn tag names).state ∧
      (∀ heap, (Action.enter tag (names.map .local)).perform s heap =
        (Operation.enterOn tag names).perform s heap) ∧
      ∀ {r r₁ : Replay L} {frame : String}, Acts r frame s r₁ → ∀ index,
        (r.apply index ⟨frame, .action (.enter tag (names.map .local))⟩).result =
            ((s.enterOn tag names).result.map fun _ => ()).mapError (.fault index frame) ∧
          (r.apply index ⟨frame, .action (.enter tag (names.map .local))⟩).state =
            r₁.setSession frame (s.enterOn tag names).state := by
  refine ⟨s.branchesOn tag names, fun heap => s.perform_enter_locals heap tag names, ?_⟩
  intro r r₁ frame acts index
  obtain ⟨hresult, hstate⟩ := onSession_of_acts acts index
    (Action.enter tag (names.map .local)).perform
  rw [s.perform_enter_locals] at hresult hstate
  refine ⟨?_, hstate⟩
  show (r.onSession index frame _).result.map (fun _ => ()) = _
  rw [hresult]
  show (((s.enterOn tag names).result.map Reply.level).mapError _).map _ = _
  cases (s.enterOn tag names).result <;> rfl

section Witness

/-- A public and a secret local are declared. -/
def publicAndSecret : Replay TwoLevel :=
  (new {} false).after 0
    [⟨"main", .action (.declare "x")⟩, ⟨"main", .action (.declare "y")⟩,
      ⟨"main", .action (.label "y" .high)⟩]

/-- A branch on both locals, one of them named twice, is a branch on a secret. Where two locals
are not declared the first is blamed, and nothing changes. -/
theorem branch_on_locals_publicAndSecret :
    Acts publicAndSecret "main" (publicAndSecret.current "main") publicAndSecret ∧
      (publicAndSecret.apply 3
        ⟨"main", .action (.enter ⟨"a"⟩ [.local "x", .local "y", .local "x"])⟩).result = .ok () ∧
      ((publicAndSecret.apply 3
        ⟨"main", .action (.enter ⟨"a"⟩ [.local "x", .local "y", .local "x"])⟩).state.current
          "main").pc.scopes = [⟨⟨"a"⟩, .high, .high⟩] ∧
      (publicAndSecret.apply 3
        ⟨"main", .action (.enter ⟨"a"⟩ [.local "y", .local "u", .local "v"])⟩).result =
          .error (.fault 3 "main" (.unregistered (.local "u"))) ∧
      (publicAndSecret.apply 3
        ⟨"main", .action (.enter ⟨"a"⟩ [.local "y", .local "u", .local "v"])⟩).state =
          publicAndSecret := by
  have hfound : publicAndSecret.frames["main"]? = some (publicAndSecret.current "main") := by rfl
  have hacts : Acts publicAndSecret "main" (publicAndSecret.current "main") publicAndSecret :=
    .isOpen hfound
  obtain ⟨-, -, henters⟩ := branch_on_locals (publicAndSecret.current "main") ⟨"a"⟩ ["x", "y", "x"]
  obtain ⟨-, -, hfails⟩ := branch_on_locals (publicAndSecret.current "main") ⟨"a"⟩ ["y", "u", "v"]
  obtain ⟨hentered, hinside⟩ := henters hacts 3
  obtain ⟨hblamed, hunchanged⟩ := hfails hacts 3
  refine ⟨hacts, hentered.trans (by rfl), ?_, hblamed.trans (by rfl), ?_⟩
  · exact (congrArg (fun r : Replay TwoLevel => (r.current "main").pc.scopes) hinside).trans
      (by rfl)
  · exact hunchanged.trans (setSession_self hfound)

end Witness

end Replay

end InfoFlow
