import Mathlib.Data.List.Forall2
import InfoFlow.Level.CategorySet
import InfoFlow.Proofs.Replay.Progress
import InfoFlow.Proofs.Replay.SingleFrame
import InfoFlow.Proofs.Session.Observer

/-!
# Noninterference for the labels of locals

Two traces of one root frame differ only in what happens inside branches whose
program counter is out of sight of an observer at level `l`. When both are
replayed without a violation, the observer can tell nothing from the program
counter and the labels of the locals outside these branches (`noninterference`).

The argument is the classical one. A branch out of sight leaves all labels alike
(confinement, `veiled_of_nested`), and an action in sight keeps similar sessions
similar (`Session.Similar.act`). An induction along the first trace puts the two
together; whether a branch is out of sight is the same in both traces, because
the condition of a branch in sight is.
-/

namespace InfoFlow

open LawfulJoin
open InfoFlow.Action (Nested)

variable {L : Type}

namespace Replay

variable [Level L] {r : Replay L} {frame : String} {index : Nat}

/-! ## §1  Branches out of sight -/

/-- Session `s'` has the program counter of `s`, and an observer at `l` sees no
change in the locals that `body` does not declare. -/
structure Veiled (l : L) (body : List (Action L)) (s s' : Session L) : Prop where
  pc : s'.pc = s.pc
  locals : ∀ x o, .declare x ∉ body → AlikeSlots l o (s.locals.find? x) →
    AlikeSlots l o (s'.locals.find? x)

variable {l : L} {s s₁ s₂ s' : Session L}

theorem Veiled.mono {body body' : List (Action L)} (h : Veiled l body s s')
    (hbody : ∀ x, .declare x ∈ body → .declare x ∈ body') : Veiled l body' s s' where
  pc := h.pc
  locals := fun x o hdeclares hx => h.locals x o (fun hmem => hdeclares (hbody x hmem)) hx

theorem Veiled.trans {body body' : List (Action L)} (h : Veiled l body s s₁)
    (h' : Veiled l body' s₁ s') : Veiled l (body ++ body') s s' where
  pc := h'.pc.trans h.pc
  locals := by
    intro x o hdeclares hx
    have hfirst := h.locals x o (fun hmem => hdeclares (List.mem_append_left _ hmem)) hx
    exact h'.locals x o (fun hmem => hdeclares (List.mem_append_right _ hmem)) hfirst

/-- A branch is veiled if its inside is: entering and leaving touch no local. -/
theorem Veiled.scope {body : List (Action L)} {tag tag' : Tag} {condition : List L}
    {heap heap₁ heap₂ heap' : Heap L} {reply reply' : Reply L}
    (henter : (Operation.enter tag condition).Succeeds s heap reply s₁ heap₁)
    (hinside : Veiled l body s₁ s₂)
    (hexit : (Operation.exit tag').Succeeds s₂ heap₂ reply' s' heap') : Veiled l body s s' where
  pc := (henter.pc_eq_of_scope hinside.pc hexit).2
  locals := by
    intro x o hdeclares hx
    obtain ⟨-, hentered, -, -⟩ := henter.of_enters trivial
    rw [hexit.of_exit.1]
    rw [← hentered] at hx
    exact hinside.locals x o hdeclares hx

/-- An action out of sight that neither enters nor leaves a branch is veiled. -/
theorem veiled_of_succeeds [LawfulJoin L] {action : Action L} (hplain : action.Plain)
    (hlabels : ¬ action.Labels) (henters : ¬ action.Enters) (hexits : ¬ action.Exits)
    {heap heap' : Heap L} {reply : Reply L} {level : L}
    (hrule : (action.operation level).Succeeds s heap reply s' heap')
    (hhigh : ¬ s.pc.level ≤ l) : Veiled l [action] s s' where
  pc := Action.pc_eq_of_succeeds henters hexits hrule
  locals := by
    intro x o hdeclares hx
    refine hrule.alikeSlots hhigh ?_ ?_ hx
    · intro hrelabels
      cases action with
      | label name level => exact hlabels trivial
      | bindArgument position name => exact hplain
      | _ => exact hrelabels
    · intro hdeclared
      cases action with
      | declare name =>
          refine hdeclares (List.mem_singleton.2 ?_)
          exact congrArg Action.declare hdeclared.symm
      | bindArgument position name => exact hplain
      | _ => exact hdeclared

theorem veiled_afterBranch {tag : Tag} {condition : List (Operand L)} {body : List (Action L)}
    (henter : (r.apply index ⟨frame, .action (.enter tag condition)⟩).result = .ok ())
    (hinside : Veiled l body ((r.act frame index (.enter tag condition)).current frame)
      (((r.act frame index (.enter tag condition)).actAll frame (index + 1) body).current frame))
    (hexit : (((r.act frame index (.enter tag condition)).actAll frame (index + 1) body).apply
      (index + 1 + body.length) ⟨frame, .action (.exit tag)⟩).result = .ok ()) :
    Veiled l body (r.current frame)
      ((r.afterBranch frame index tag condition body).current frame) := by
  obtain ⟨level, reply, heap', -, hentered⟩ := succeeds_of_apply henter
  obtain ⟨level', reply', heap'', -, hleft⟩ := succeeds_of_apply hexit
  exact Veiled.scope hentered hinside hleft

/-- **Confinement.** What happens in a branch that is out of sight is veiled. -/
theorem veiled_of_nested [LawfulJoin L] {body : List (Action L)} (hnested : Nested body)
    (hclean : r.Clean index (Action.steps frame body)) (hplain : ∀ action ∈ body, action.Plain)
    (hlabels : ∀ action ∈ body, ¬ action.Labels) (hhigh : ¬ (r.current frame).pc.level ≤ l) :
    Veiled l body (r.current frame) ((r.actAll frame index body).current frame) := by
  induction hnested generalizing r index with
  | nil => exact ⟨rfl, fun x o _ hx => hx⟩
  | @cons action rest henters hexits nested ih =>
      obtain ⟨hfirst, hrest⟩ := hclean
      obtain ⟨level, reply, heap', -, hrule⟩ := succeeds_of_apply hfirst
      have hveiled := veiled_of_succeeds (hplain action List.mem_cons_self)
        (hlabels action List.mem_cons_self) henters hexits hrule hhigh
      have hlater : ¬ ((r.act frame index action).current frame).pc.level ≤ l := by
        rw [hveiled.pc]
        exact hhigh
      refine hveiled.trans (ih hrest ?_ ?_ hlater)
      · exact fun a ha => hplain a (List.mem_cons_of_mem _ ha)
      · exact fun a ha => hlabels a (List.mem_cons_of_mem _ ha)
  | @scope tag condition inner rest inside nested ihInside ihRest =>
      have hinner : ∀ a ∈ inner, a ∈ .enter tag condition :: inner ++ .exit tag :: rest :=
        fun a ha => List.mem_append_left _ (List.mem_cons_of_mem _ ha)
      have houter : ∀ a ∈ rest, a ∈ .enter tag condition :: inner ++ .exit tag :: rest :=
        fun a ha => List.mem_append_right _ (List.mem_cons_of_mem _ ha)
      obtain ⟨henter, hcleanInner, hexit, hcleanRest⟩ := clean_branch.1 hclean
      obtain ⟨level, reply, heap', -, hentered⟩ := succeeds_of_apply henter
      -- inside the inner branch the program counter is higher still
      have hdeeper :
          ¬ ((r.act frame index (.enter tag condition)).current frame).pc.level ≤ l :=
        fun hle => hhigh (le_trans (hentered.level_le_of_enters trivial) hle)
      have hinside := ihInside hcleanInner (fun a ha => hplain a (hinner a ha))
        (fun a ha => hlabels a (hinner a ha)) hdeeper
      have hbranch := veiled_afterBranch henter hinside hexit
      have hafter : ¬ ((r.afterBranch frame index tag condition inner).current frame).pc.level ≤ l := by
        rw [hbranch.pc]
        exact hhigh
      have hrest := ihRest hcleanRest (fun a ha => hplain a (houter a ha))
        (fun a ha => hlabels a (houter a ha)) hafter
      rw [actAll_branch]
      refine (hbranch.trans hrest).mono ?_
      intro x hx
      rcases List.mem_append.1 hx with hx | hx
      · exact hinner _ hx
      · exact houter _ hx

/-! ## §2  Traces as an observer sees them -/

/-- `Observed l frame r index actions outside hidden points`: when `actions` are
carried out from `r`, those in `outside` are in sight of an observer at `l`. The
rest, in `hidden`, lies inside outermost branches that are entered with a program
counter out of sight; their entry and exit are in sight. The `points` are the
sessions before each action in sight and at the end, but for the insides of these
branches. -/
inductive Observed (l : L) (frame : String) :
    Replay L → Nat → List (Action L) → List (Action L) → List (Action L) → List (Session L) → Prop
  | done {r : Replay L} {index : Nat} : Observed l frame r index [] [] [] [r.current frame]
  | visible {r : Replay L} {index : Nat} {action : Action L}
      {actions outside hidden : List (Action L)} {points : List (Session L)}
      (low : action.Enters → ((r.act frame index action).current frame).pc.level ≤ l)
      (rest : Observed l frame (r.act frame index action) (index + 1) actions outside hidden
        points) :
      Observed l frame r index (action :: actions) (action :: outside) hidden
        (r.current frame :: points)
  | secret {r : Replay L} {index : Nat} {tag : Tag} {condition : List (Operand L)}
      {body actions outside hidden : List (Action L)} {points : List (Session L)}
      (high : ¬ ((r.act frame index (.enter tag condition)).current frame).pc.level ≤ l)
      (nested : Nested body)
      (rest : Observed l frame (r.afterBranch frame index tag condition body)
        (index + 1 + body.length + 1) actions outside hidden points) :
      Observed l frame r index (.enter tag condition :: body ++ .exit tag :: actions)
        (.enter tag condition :: .exit tag :: outside) (body ++ hidden) (r.current frame :: points)

/-- **Every trace that succeeds has such a view**, if each branch out of sight is
left in the end, that is, if none is open after the last action. -/
theorem exists_observed {actions : List (Action L)}
    (hclean : r.Clean index (Action.steps frame actions))
    (hend : ∀ scope ∈ ((r.actAll frame index actions).current frame).pc.scopes,
      scope.inside ≤ l) :
    ∃ outside hidden points, Observed l frame r index actions outside hidden points := by
  induction hlength : actions.length using Nat.strongRecOn generalizing r index actions with
  | ind n ih =>
      cases actions with
      | nil => exact ⟨[], [], _, .done⟩
      | cons action rest =>
          rw [List.length_cons] at hlength
          have hrest : rest.length < n := by omega
          have hcleanRest := hclean.2
          by_cases hlow : action.Enters → ((r.act frame index action).current frame).pc.level ≤ l
          · obtain ⟨outside, hidden, points, hobserved⟩ := ih _ hrest hcleanRest hend rfl
            exact ⟨action :: outside, hidden, _, .visible hlow hobserved⟩
          · rcases action.scope_cases with ⟨tag, condition, rfl⟩ | ⟨tag, rfl⟩ | ⟨henters, -⟩
            · have hhigh :
                  ¬ ((r.act frame index (.enter tag condition)).current frame).pc.level ≤ l :=
                fun hle => hlow fun _ => hle
              rcases leaves_or_stays hcleanRest with
                ⟨body, tag', later, rfl, hnested⟩ | ⟨inner, hinner⟩
              · obtain ⟨rfl, -⟩ := exit_of_nested hnested hclean
                have hshorter : later.length < n := by
                  rw [List.length_append, List.length_cons] at hrest
                  omega
                rw [← List.cons_append, actAll_branch] at hend
                obtain ⟨outside, hidden, points, hobserved⟩ := ih _ hshorter
                  (clean_branch.1 hclean).2.2.2 hend rfl
                exact ⟨_, body ++ hidden, _, .secret hhigh hnested hobserved⟩
              · -- the scope is open at the end, where all scopes are in sight
                obtain ⟨level, reply, heap', -, hrule⟩ := succeeds_of_apply hclean.1
                obtain ⟨-, -, -, scope, hpush⟩ := hrule.of_enters trivial
                refine absurd (hend scope ?_) ?_
                · refine hinner ▸ List.mem_append_right inner ?_
                  show scope ∈ ((r.act frame index (.enter tag condition)).current frame).pc.scopes
                  rw [hpush]
                  exact List.mem_cons_self
                · rw [hpush] at hhigh
                  exact hhigh
            · exact absurd (fun henters => henters.elim) hlow
            · exact absurd (fun h => absurd h henters) hlow

/-- All actions are plain and succeed. The hidden ones label nothing by hand and
declare only locals of these names. -/
structure Admissible (frame : String) (names : String → Prop) (r : Replay L) (index : Nat)
    (actions hidden : List (Action L)) : Prop where
  clean : r.Clean index (Action.steps frame actions)
  plain : ∀ action ∈ actions, action.Plain
  labels : ∀ action ∈ hidden, ¬ action.Labels
  declares : ∀ x, .declare x ∈ hidden → names x

variable {names : String → Prop} {r' : Replay L} {index' : Nat}

theorem Admissible.tail {action : Action L} {actions hidden : List (Action L)}
    (h : Admissible frame names r index (action :: actions) hidden) :
    Admissible frame names (r.act frame index action) (index + 1) actions hidden where
  clean := h.clean.2
  plain := fun a ha => h.plain a (List.mem_cons_of_mem _ ha)
  labels := h.labels
  declares := h.declares

theorem Admissible.afterBranch {tag : Tag} {condition : List (Operand L)}
    {body actions hidden : List (Action L)}
    (h : Admissible frame names r index (.enter tag condition :: body ++ .exit tag :: actions)
      (body ++ hidden)) :
    Admissible frame names (r.afterBranch frame index tag condition body)
      (index + 1 + body.length + 1) actions hidden where
  clean := (clean_branch.1 h.clean).2.2.2
  plain := fun a ha => h.plain a (List.mem_append_right _ (List.mem_cons_of_mem _ ha))
  labels := fun a ha => h.labels a (List.mem_append_right _ ha)
  declares := fun x hx => h.declares x (List.mem_append_right _ hx)

theorem Admissible.veiled [LawfulJoin L] {tag : Tag} {condition : List (Operand L)}
    {body actions hidden : List (Action L)}
    (h : Admissible frame names r index (.enter tag condition :: body ++ .exit tag :: actions)
      (body ++ hidden))
    (nested : Nested body)
    (high : ¬ ((r.act frame index (.enter tag condition)).current frame).pc.level ≤ l) :
    Veiled l body (r.current frame)
      ((r.afterBranch frame index tag condition body).current frame) := by
  obtain ⟨henter, hbody, hexit, -⟩ := clean_branch.1 h.clean
  refine veiled_afterBranch henter (veiled_of_nested nested hbody ?_ ?_ high) hexit
  · intro a ha
    exact h.plain a (List.mem_append_left _ (List.mem_cons_of_mem _ ha))
  · exact fun a ha => h.labels a (List.mem_append_left _ ha)

open Session (Similar)

theorem similar_act [LawfulJoin L] {action : Action L}
    (h : Similar l names (r.current frame) (r'.current frame)) (hplain : action.Plain)
    (hseen : ∀ x, action.Mentions x → ¬ names x)
    (hok : (r.apply index ⟨frame, .action action⟩).result = .ok ())
    (hok' : (r'.apply index' ⟨frame, .action action⟩).result = .ok ())
    (hlow : action.Enters → ((r.act frame index action).current frame).pc.level ≤ l) :
    Similar l names ((r.act frame index action).current frame)
      ((r'.act frame index' action).current frame) := by
  obtain ⟨level, reply, heap, hlevel, hrule⟩ := succeeds_of_apply hok
  obtain ⟨level', reply', heap', hlevel', hrule'⟩ := succeeds_of_apply hok'
  exact h.act hplain hseen (h.operandLevel hplain hseen hlevel hlevel') hrule hrule' hlow

theorem similar_of_veiled {body body' : List (Action L)} {t t' : Session L}
    (h : Similar l names s t) (hs : Veiled l body s s') (ht : Veiled l body' t t')
    (hbody : ∀ x, .declare x ∈ body → names x) (hbody' : ∀ x, .declare x ∈ body' → names x) :
    Similar l names s' t' where
  base := by rw [hs.pc, ht.pc, h.base]
  scopes := by rw [hs.pc, ht.pc, h.scopes]
  base_le := by rw [hs.pc]; exact h.base_le
  scopes_le := by rw [hs.pc]; exact h.scopes_le
  locals := by
    intro x hx
    -- first move the second session on, then, seen from there, the first
    have hright := ht.locals x _ (fun hmem => hx (hbody' x hmem)) (h.locals x hx)
    exact (hs.locals x _ (fun hmem => hx (hbody x hmem)) hright.symm).symm

/-- Two traces that an observer sees the same of go through similar sessions. -/
theorem Observed.similar [LawfulJoin L] {actions actions' outside hidden hidden' : List (Action L)}
    {points points' : List (Session L)} (h : Observed l frame r index actions outside hidden points)
    (hadm : Admissible frame names r index actions hidden)
    (h' : Observed l frame r' index' actions' outside hidden' points')
    (hadm' : Admissible frame names r' index' actions' hidden')
    (hseen : ∀ action ∈ outside, ∀ x, action.Mentions x → ¬ names x)
    (hsimilar : Similar l names (r.current frame) (r'.current frame)) :
    List.Forall₂ (Similar l names) points points' := by
  induction h generalizing r' index' actions' hidden' points' with
  | done =>
      cases h' with
      | done => exact .cons hsimilar .nil
  | @visible r index action actions outside hidden points low rest ih =>
      have hplain := hadm.plain action List.mem_cons_self
      have hfirst := hseen action List.mem_cons_self
      cases h' with
      | visible low' rest' =>
          have hnext := similar_act hsimilar hplain hfirst hadm.clean.1 hadm'.clean.1 low
          exact .cons hsimilar (ih hadm.tail rest' hadm'.tail
            (fun a ha => hseen a (List.mem_cons_of_mem _ ha)) hnext)
      | secret high' nested' rest' =>
          -- the branch is in sight in the first trace, so it is in the second
          have hnext := similar_act hsimilar hplain hfirst hadm.clean.1
            (clean_branch.1 hadm'.clean).1 low
          exact absurd hnext.symm.level_le high'
  | @secret r index tag condition body actions outside hidden points high nested rest ih =>
      have hplain := hadm.plain (.enter tag condition) List.mem_cons_self
      have hfirst := hseen (.enter tag condition) List.mem_cons_self
      cases h' with
      | visible low' rest' =>
          have hnext := similar_act hsimilar.symm hplain hfirst hadm'.clean.1
            (clean_branch.1 hadm.clean).1 low'
          exact absurd hnext.symm.level_le high
      | @secret _ _ _ _ body' _ _ _ _ high' nested' rest' =>
          have hnext := similar_of_veiled hsimilar (hadm.veiled nested high)
            (hadm'.veiled nested' high')
            (fun x hx => hadm.declares x (List.mem_append_left _ hx))
            (fun x hx => hadm'.declares x (List.mem_append_left _ hx))
          refine .cons hsimilar (ih hadm.afterBranch rest' hadm'.afterBranch ?_ hnext)
          exact fun a ha => hseen a (List.mem_cons_of_mem _ (List.mem_cons_of_mem _ ha))

/-! ## §3  Noninterference -/

/-- A trace of one root frame that is replayed without a violation, as an observer
at `l` sees it. Nothing is labelled by hand where the observer does not see it. -/
structure Unviolated (l : L) (r : Replay L) (frame : String)
    (actions outside hidden : List (Action L)) (points : List (Session L)) : Prop where
  run : ∃ description report, report.violations = [] ∧
    (r.run ⟨description, Action.steps frame actions⟩).result = .ok report
  observed : Observed l frame r.reset 0 actions outside hidden points
  plain : ∀ action ∈ actions, action.Plain
  labels : ∀ action ∈ hidden, ¬ action.Labels

def DeclaredIn (hidden hidden' : List (Action L)) (x : String) : Prop :=
  .declare x ∈ hidden ∨ .declare x ∈ hidden'

/-- **Noninterference for the labels of locals.** Two traces of one frame are
replayed without a violation. They agree outside the branches whose program
counter is out of sight of an observer at `l`; what they do inside may differ in
any way, but locals declared there are not mentioned outside. Then at every
point outside these branches the program counters are equal, and every local is
declared in both replays or in neither, under the same program counter, at
levels that are equal or both out of sight. -/
theorem noninterference [LawfulBottom L] {l : L} {r r' : Replay L} {frame : String}
    {actions actions' outside hidden hidden' : List (Action L)} {points points' : List (Session L)}
    (h : Unviolated l r frame actions outside hidden points)
    (h' : Unviolated l r' frame actions' outside hidden' points')
    (hnames : ∀ action ∈ outside, ∀ x, action.Mentions x →
      .declare x ∉ hidden ∧ .declare x ∉ hidden') :
    List.Forall₂ (fun s t => s.pc.level = t.pc.level ∧
      ∀ x, .declare x ∉ hidden → .declare x ∉ hidden' →
        AlikeSlots l (s.locals.find? x) (t.locals.find? x)) points points' := by
  -- the induction keeps these names fixed while it uses up the hidden actions
  have hadm : Admissible frame (DeclaredIn hidden hidden') r.reset 0 actions hidden := by
    obtain ⟨description, report, hnone, hrun⟩ := h.run
    exact ⟨clean_of_run hrun hnone, h.plain, h.labels, fun x hx => Or.inl hx⟩
  have hadm' : Admissible frame (DeclaredIn hidden hidden') r'.reset 0 actions' hidden' := by
    obtain ⟨description, report, hnone, hrun⟩ := h'.run
    exact ⟨clean_of_run hrun hnone, h'.plain, h'.labels, fun x hx => Or.inr hx⟩
  have hseen : ∀ action ∈ outside, ∀ x, action.Mentions x → ¬ DeclaredIn hidden hidden' x := by
    rintro action haction x hmentions (hx | hx)
    · exact (hnames action haction x hmentions).1 hx
    · exact (hnames action haction x hmentions).2 hx
  -- before the first step both frames are about to be opened
  have hroot : ∀ r : Replay L, r.reset.current frame = (Session.root r.policy).named frame := by
    intro r
    show ((∅ : Std.ExtTreeMap String (Session L))[frame]?).getD _ = _
    rw [Std.ExtTreeMap.getElem?_empty]
    rfl
  have hsimilar :
      Similar l (DeclaredIn hidden hidden') (r.reset.current frame) (r'.reset.current frame) := by
    rw [hroot, hroot]
    refine ⟨rfl, rfl, LawfulBottom.bottom_le l, fun scope hscope => ?_, fun x _ => ?_⟩
    · exact absurd hscope List.not_mem_nil
    · show AlikeSlots l ((Locals.empty : Locals L).find? x) ((Locals.empty : Locals L).find? x)
      rw [Locals.find?_empty]
      exact .undeclared
  refine (h.observed.similar hadm h'.observed hadm' hseen hsimilar).imp ?_
  intro s t hst
  refine ⟨hst.level_eq, fun x hx hx' => hst.locals x ?_⟩
  rintro (hmem | hmem)
  · exact hx hmem
  · exact hx' hmem

section Witness

open CategorySet (ofBits)

/-- The local `c` is secret in category 1, `x` in categories 1 and 2. -/
def secretLocals : List (Action (CategorySet 3)) :=
  [.declare "c", .label "c" (ofBits 2), .declare "x", .label "x" (ofBits 6), .declare "y"]

/-- There is a branch on `c` and one on `x`, then `y` is written and checked. -/
def onSecrets (first second : List (Action (CategorySet 3))) : List (Action (CategorySet 3)) :=
  secretLocals ++ (.enter ⟨"first"⟩ [.local "c"] :: first ++ .exit ⟨"first"⟩ ::
    (.enter ⟨"second"⟩ [.local "x"] :: second ++ .exit ⟨"second"⟩ ::
      [.write "y" [.literal (ofBits 1)], .checkSink "y" (ofBits 1)]))

/-- Lowers `x`, so that the branch on it is entered at another level. -/
def lowering : List (Action (CategorySet 3)) := [.write "x" [.constant]]

def copying : List (Action (CategorySet 3)) := [.declare "t", .write "t" [.local "x"]]

def nesting : List (Action (CategorySet 3)) := [.enter ⟨"inner"⟩ [.constant], .exit ⟨"inner"⟩]

theorem observed_onSecrets {r : Replay (CategorySet 3)} {first second : List (Action (CategorySet 3))}
    (hfirst : Nested first) (hsecond : Nested second)
    (high : ¬ (((r.actAll "main" 0 secretLocals).act "main" 5
      (.enter ⟨"first"⟩ [.local "c"])).current "main").pc.level ≤ ofBits 1)
    (high' : ¬ ((((r.actAll "main" 0 secretLocals).afterBranch "main" 5 ⟨"first"⟩ [.local "c"]
      first).act "main" (5 + 1 + first.length + 1)
      (.enter ⟨"second"⟩ [.local "x"])).current "main").pc.level ≤ ofBits 1) :
    ∃ points, Observed (ofBits 1) "main" r 0 (onSecrets first second) (onSecrets [] [])
      (first ++ second) points := by
  have hobserved : ∃ points, Observed (ofBits 1) "main" r 0 (onSecrets first second)
      (onSecrets [] []) (first ++ (second ++ [])) points :=
    ⟨_, .visible False.elim <| .visible False.elim <| .visible False.elim <|
      .visible False.elim <| .visible False.elim <| .secret high hfirst <|
      .secret high' hsecond <| .visible False.elim <| .visible False.elim .done⟩
  rw [List.append_nil] at hobserved
  exact hobserved

/-- The second branch of the first trace is entered at a level to which that of
the second trace does not flow. -/
theorem noninterference_onSecrets :
    ∃ points points' : List (Session (CategorySet 3)),
      Unviolated (ofBits 1) (.new {} false) "main" (onSecrets lowering copying) (onSecrets [] [])
        (lowering ++ copying) points ∧
      Unviolated (ofBits 1) (.new {} true) "main" (onSecrets [] nesting) (onSecrets [] [])
        ([] ++ nesting) points' ∧
      List.Forall₂ (fun s t => s.pc.level = t.pc.level ∧
        AlikeSlots (ofBits 1) (s.locals.find? "x") (t.locals.find? "x")) points points' := by
  obtain ⟨points, hobserved⟩ := @observed_onSecrets (new {} false).reset lowering copying
    (.cons id id .nil) (.cons id id (.cons id id .nil)) (by decide) (by decide)
  obtain ⟨points', hobserved'⟩ := @observed_onSecrets (new {} true).reset [] nesting
    .nil (.scope .nil .nil) (by decide) (by decide)
  have h : Unviolated (ofBits 1) (.new {} false) "main" (onSecrets lowering copying)
      (onSecrets [] []) (lowering ++ copying) points :=
    { run := ⟨"", ⟨14, []⟩, rfl, by rfl⟩
      observed := hobserved
      plain := by simp [onSecrets, secretLocals, lowering, copying, Action.Plain, Operand.Plain]
      labels := by simp [lowering, copying, Action.Labels] }
  have h' : Unviolated (ofBits 1) (.new {} true) "main" (onSecrets [] nesting) (onSecrets [] [])
      ([] ++ nesting) points' :=
    { run := ⟨"", ⟨13, []⟩, rfl, by rfl⟩
      observed := hobserved'
      plain := by simp [onSecrets, secretLocals, nesting, Action.Plain, Operand.Plain]
      labels := by simp [nesting, Action.Labels] }
  have hnames : ∀ action ∈ onSecrets [] [], ∀ x, action.Mentions x →
      .declare x ∉ lowering ++ copying ∧ .declare x ∉ [] ++ nesting := by
    simp [onSecrets, secretLocals, lowering, copying, nesting, Action.Mentions]
  refine ⟨points, points', h, h', ?_⟩
  refine (noninterference h h' hnames).imp ?_
  rintro s t ⟨hpc, hlocals⟩
  exact ⟨hpc, hlocals "x" (by simp [lowering, copying]) (by simp [nesting])⟩

end Witness

end Replay

end InfoFlow
