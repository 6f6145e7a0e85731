import InfoFlow.Level.Chain
import InfoFlow.Proofs.Replay.BuriedScope

/-!
# Public branches

A frame that branches on a value which flows to its program counter tells nothing by it. So
a trace may be given such a branch, or be relieved of it, wherever the frame leaves it
properly: that changes nothing but the numbers of the steps (`run_branched`). Before the
branch the two replays are the same; inside, one has a scope more; after it they are the same
again, but two steps apart.
-/

namespace InfoFlow

variable {L : Type}

/-! ## §1  Ends of a replay -/

/-- Two sessions that differ in their open scopes at most. -/
structure Session.Alike (s t : Session L) : Prop where
  frame_eq : t.frame = s.frame
  locals_eq : t.locals = s.locals
  level_eq : t.pc.level = s.pc.level
  arguments_eq : t.arguments = s.arguments
  returned_eq : t.returned = s.returned

/-- Two replays whose sessions differ in their open scopes at most. -/
structure Replay.Alike (r r' : Replay L) : Prop where
  heap_eq : r'.heap = r.heap
  opened_eq : r'.opened = r.opened
  returned_eq : r'.returned = r.returned
  frames : ∀ f : String, Option.Rel Session.Alike r.frames[f]? r'.frames[f]?

/-- The same violation under the step's other number. -/
def Violation.renumber (number : Nat → Nat) (v : Violation) : Violation :=
  { v with step := number v.step }

/-- `SameEnd number ending ending'`: two replays end in the same way, but that step `i` of the
first one has number `number i` in the second. One that carries out all its steps carries out
two more in the second and leaves the same; one that stops at an illegal flow or is aborted
does so at the same step. -/
inductive SameEnd (number : Nat → Nat) (keepGoing : Bool) :
    Except ReplayFault Report × Replay L → Except ReplayFault Report × Replay L → Prop
  | finished {n : Nat} {violations : List Violation} {r : Replay L}
      (goesOn : keepGoing = true ∨ violations = []) :
      SameEnd number keepGoing (.ok ⟨n, violations⟩, r)
        (.ok ⟨n + 2, violations.map (·.renumber number)⟩, r)
  | stopped {n : Nat} {violations : List Violation} {r r' : Replay L}
      (stops : ¬ (keepGoing = true ∨ violations = [])) (alike : r.Alike r') :
      SameEnd number keepGoing (.ok ⟨n + 1, violations⟩, r)
        (.ok ⟨number n + 1, violations.map (·.renumber number)⟩, r')
  | aborted {e : ReplayFault} {r r' : Replay L} (alike : r.Alike r') :
      SameEnd number keepGoing (.error e, r) (.error (e.atStep (number e.step)), r')

theorem ReplayFault.violation?_atStep_of_some {e : ReplayFault} {v : Violation}
    (h : e.violation? = some v) (n : Nat) :
    (e.atStep n).violation? = some { v with step := n } := by
  cases e with
  | fault step frame cause =>
      obtain ⟨hcause, rfl⟩ := Replay.violation?_fault h
      simp [violation?, atStep, hcause]
  | _ => cases h

namespace Replay

variable [Level L] {r r' r₁ : Replay L} {frame : String} {s t : Session L} {step : Step L}
  {fault : Nat → ReplayFault} {scope : Scope L} {outer : List (Scope L)} {tags tags' : List Tag}
  {v : Violation} {index : Nat} {number : Nat → Nat}

omit [Level L] in
theorem Alike.refl (r : Replay L) : r.Alike r where
  heap_eq := rfl
  opened_eq := rfl
  returned_eq := rfl
  frames f := by
    cases r.frames[f]? with
    | none => exact .none
    | some s => exact .some ⟨rfl, rfl, rfl, rfl, rfl⟩

omit [Level L] in
theorem Buried.alike (h : Buried frame scope outer tags r r') : r.Alike r' := by
  obtain ⟨s, pc, found, hpc, rfl⟩ := h
  refine ⟨rfl, rfl, rfl, fun f => ?_⟩
  rw [frames_setSession]
  split
  · rename_i hsame
    rw [hsame, found]
    exact .some ⟨rfl, rfl, hpc.level_eq, rfl, rfl⟩
  · exact (Alike.refl r).frames f

/-- From `r` at step `i` the replay of `steps` ends as the replay of `steps'` does from `r'` at
step `i'`, whatever illegal flows there have been. -/
def EndsAs (number : Nat → Nat) (r : Replay L) (i : Nat) (steps : List (Step L)) (r' : Replay L)
    (i' : Nat) (steps' : List (Step L)) : Prop :=
  ∀ violations, r.keepGoing = true ∨ violations = [] →
    SameEnd number r.keepGoing (r.replaySteps i ⟨i, violations⟩ steps).ending
      (r'.replaySteps i' ⟨i', violations.map (·.renumber number)⟩ steps').ending

theorem Stops.violation?_renumber (h : Stops r step fault r₁) {i i' : Nat} (hnumber : number i = i')
    (hviolation : (fault i).violation? = some v) :
    (fault i').violation? = some (v.renumber number) := by
  have hstep := (h.eq_of_violation hviolation).2
  rw [← h.atStep_eq i i', ReplayFault.violation?_atStep_of_some hviolation, Violation.renumber,
    hstep, hnumber]

/-- **Two replays do the same step.** -/
theorem EndsAs.cons {i i' : Nat} {steps steps' : List (Step L)} (hnumber : number i = i')
    (hkeep : r'.keepGoing = r.keepGoing)
    (hdoes : ∀ r₁, Does r step r₁ →
      ∃ r₁', Does r' step r₁' ∧ EndsAs number r₁ (i + 1) steps r₁' (i' + 1) steps')
    (hstops : ∀ fault r₁, Stops r step fault r₁ → ∃ r₁', Stops r' step fault r₁' ∧ r₁.Alike r₁')
    (hviolates : ∀ fault v, Stops r step fault r → (fault i).violation? = some v →
      r.keepGoing = true → EndsAs number r (i + 1) steps r' (i' + 1) steps') :
    EndsAs number r i (step :: steps) r' i' (step :: steps') := by
  intro violations hgo
  rcases r.does_or_stops step with ⟨r₁, hdoes₁⟩ | ⟨fault, r₁, hstops₁⟩
  · obtain ⟨r₁', hdoes₁', hrest⟩ := hdoes r₁ hdoes₁
    rw [← hdoes₁.keepGoing_eq] at hgo ⊢
    rw [hdoes₁.ending_replaySteps, hdoes₁'.ending_replaySteps]
    exact hrest violations hgo
  · obtain ⟨r₁', hstops₁', halike⟩ := hstops fault r₁ hstops₁
    cases hviolation : (fault i).violation? with
    | none =>
        -- both are aborted, at step `i` and step `i'`
        have hviolation' : (fault i').violation? = none := by
          rw [← hstops₁.atStep_eq i i']
          exact ReplayFault.violation?_atStep hviolation i'
        rw [hstops₁.ending_replaySteps hviolation, hstops₁'.ending_replaySteps hviolation',
          ← hstops₁.atStep_eq i i', ← hnumber]
        have hstep := hstops₁.step_eq i
        have haborted : SameEnd number r.keepGoing (.error (fault i), r₁)
            (.error ((fault i).atStep (number (fault i).step)), r₁') := .aborted halike
        rw [hstep] at haborted
        exact haborted
    | some v =>
        -- both put the illegal flow down, and go on or stop there
        have hviolation' := hstops₁.violation?_renumber hnumber hviolation
        obtain ⟨rfl, -⟩ := hstops₁.eq_of_violation hviolation
        obtain ⟨rfl, -⟩ := hstops₁'.eq_of_violation hviolation'
        rw [hstops₁.ending_replaySteps_violation hviolation,
          hstops₁'.ending_replaySteps_violation hviolation', hkeep]
        have hmap : violations.map (·.renumber number) ++ [v.renumber number] =
            (violations ++ [v]).map (·.renumber number) := by simp
        rw [hmap]
        split
        · rename_i hgoing
          exact hviolates fault v hstops₁ hviolation hgoing _ (Or.inl hgoing)
        · rename_i hstop
          have hstopped : SameEnd number r₁.keepGoing (.ok ⟨i + 1, violations ++ [v]⟩, r₁)
              (.ok ⟨number i + 1, (violations ++ [v]).map (·.renumber number)⟩, r₁') :=
            .stopped (by simpa using hstop) halike
          rw [hnumber] at hstopped
          exact hstopped

/-! ## §2  The parts of a trace -/

variable {i : Nat} {steps rest rest' before inside : List (Step L)}

/-- After the branch there are two steps more. -/
theorem endsAs_after (hnumber : ∀ j, i ≤ j → number j = j + 2) (r : Replay L)
    (steps : List (Step L)) : EndsAs number r i steps r (i + 2) steps := by
  induction steps generalizing r i with
  | nil =>
      intro violations hgo
      exact .finished hgo
  | cons step steps ih =>
      have hlater : ∀ r₁ : Replay L, EndsAs number r₁ (i + 1) steps r₁ (i + 2 + 1) steps :=
        ih fun j hj => hnumber j (Nat.le_of_succ_le hj)
      exact .cons (hnumber i (Nat.le_refl i)) rfl
        (fun r₁ hdoes => ⟨r₁, hdoes, hlater r₁⟩)
        (fun _ r₁ hstops => ⟨r₁, hstops, Alike.refl r₁⟩)
        (fun _ _ _ _ _ => hlater r)

/-- Before the branch both replays are the same. -/
theorem endsAs_before (hnumber : ∀ j, j < i + before.length → number j = j)
    (hpoint : ∀ violations r₀, Advances r i before violations r₀ →
      r.keepGoing = true ∨ violations = [] →
      EndsAs number r₀ (i + before.length) rest r₀ (i + before.length) rest') :
    EndsAs number r i (before ++ rest) r i (before ++ rest') := by
  induction before generalizing r i with
  | nil => exact hpoint [] r .done (Or.inr rfl)
  | cons step before ih =>
      have hlength : i + 1 + before.length = i + (step :: before).length := by
        rw [List.length_cons]
        omega
      have hnumber' : ∀ j, j < i + 1 + before.length → number j = j :=
        fun j hj => hnumber j (hlength ▸ hj)
      refine .cons (hnumber i (by rw [List.length_cons]; omega)) rfl (fun r₁ hdoes => ?_)
        (fun _ r₁ hstops => ⟨r₁, hstops, Alike.refl r₁⟩) fun fault v hstops hviolation hkeep => ?_
      · refine ⟨r₁, hdoes, ih hnumber' fun violations r₀ hadvances hgo => ?_⟩
        rw [hdoes.keepGoing_eq] at hgo
        rw [hlength]
        exact hpoint violations r₀ (.does hdoes hadvances) hgo
      · refine ih hnumber' fun violations r₀ hadvances _ => ?_
        rw [hlength]
        exact hpoint _ r₀ (.violates hstops hviolation hadvances) (Or.inl hkeep)

omit [Level L] in
theorem Buried.keepGoing_eq (h : Buried frame scope outer tags r r') :
    r'.keepGoing = r.keepGoing := by
  obtain ⟨s, pc, -, -, rfl⟩ := h
  rfl

/-- When the scopes inside it have been left, the frame can leave the scope. -/
theorem Buried.exit (h : Buried frame scope outer [] r r') :
    Does r' ⟨frame, .action (.exit scope.tag)⟩ r := by
  obtain ⟨s, pc, found, hpc, rfl⟩ := h
  have hleave : (s.withPc pc).pc.leave scope.tag = .ok s.pc := hpc.leave_scope
  have hback : (r.setSession frame (s.withPc pc)).setSession frame s = r := by
    rw [setSession_setSession, setSession_self found]
  have hdoes : Does (r.setSession frame (s.withPc pc)) ⟨frame, .action (.exit scope.tag)⟩
      ((r.setSession frame (s.withPc pc)).setSession frame s) :=
    .action (.isOpen (found_setSession r frame _)) rfl (.exit hleave)
  rwa [hback] at hdoes

/-- **Inside the branch** there is one step more, and one scope. -/
theorem Buried.endsAs (h : Buried frame scope outer tags r r')
    (hword : (bracketsOf frame inside).foldlM Bracket.next? tags = some [])
    (hclose : ∀ step ∈ inside, step.frame = frame → step.op ≠ .close)
    (hinside : ∀ j, i ≤ j → j < i + inside.length → number j = j + 1)
    (hafter : ∀ j, i + inside.length ≤ j → number j = j + 2) :
    EndsAs number r i (inside ++ rest) r' (i + 1)
      (inside ++ ⟨frame, .action (.exit scope.tag)⟩ :: rest) := by
  -- `tags` are the scopes that the frame has entered since, and not left yet
  induction inside generalizing r r' i tags with
  | nil =>
      -- there are none: the frame leaves the branch, and both replays are at the same point
      cases hword
      intro violations hgo
      rw [List.nil_append, List.nil_append, h.exit.ending_replaySteps]
      exact endsAs_after hafter r rest violations hgo
  | cons step inside ih =>
      have hlength : i + 1 + inside.length = i + (step :: inside).length := by
        rw [List.length_cons]
        omega
      have hlater : ∀ {tags₁ r₁ r₁'}, Buried frame scope outer tags₁ r₁ r₁' →
          (bracketsOf frame inside).foldlM Bracket.next? tags₁ = some [] →
          EndsAs number r₁ (i + 1) (inside ++ rest) r₁' (i + 1 + 1)
            (inside ++ ⟨frame, .action (.exit scope.tag)⟩ :: rest) := by
        intro tags₁ r₁ r₁' h₁ hword₁
        refine ih h₁ hword₁ (fun later hmem => hclose later (List.mem_cons_of_mem _ hmem)) ?_ ?_
        · intro j hlow hhigh
          exact hinside j (Nat.le_of_succ_le hlow) (hlength ▸ hhigh)
        · intro j hlow
          exact hafter j (hlength ▸ hlow)
      have hfits := hclose step List.mem_cons_self
      rw [bracketsOf, List.flatMap_cons, List.foldlM_append] at hword
      obtain ⟨tags₁, hfirst, hrest⟩ := Option.bind_eq_some_iff.1 hword
      refine .cons (hinside i (Nat.le_refl i) (by rw [List.length_cons]; omega)) h.keepGoing_eq
        (fun r₁ hdoes => ?_) (fun fault r₁ hstops => ?_) fun fault v hstops hviolation _ => ?_
      · obtain ⟨r₁', hdoes', h₁⟩ := h.does hdoes hfits hfirst
        exact ⟨r₁', hdoes', hlater h₁ hrest⟩
      · obtain ⟨r₁', hstops', h₁, -⟩ := h.stops hstops hfits hfirst
        exact ⟨r₁', hstops', h₁.alike⟩
      · -- an illegal flow leaves the session and its scopes as they are
        obtain ⟨-, -, -, htags⟩ := h.stops hstops hfits hfirst
        exact hlater h (htags i v hviolation ▸ hrest)

end Replay

/-! ## §3  Whole traces -/

/-- A branch for a trace: `frame` enters it after the steps `before` and leaves it after the
steps `inside`. -/
structure AddedBranch (L : Type) where
  description : String
  before : List (Step L)
  inside : List (Step L)
  rest : List (Step L)
  frame : String
  tag : Tag
  condition : List (Operand L)

namespace AddedBranch

variable (b : AddedBranch L)

def entering : Step L := ⟨b.frame, .action (.enter b.tag b.condition)⟩

def leaving : Step L := ⟨b.frame, .action (.exit b.tag)⟩

/-- The trace up to the branch. -/
def upTo : Trace L := ⟨b.description, b.before⟩

/-- The trace without the branch. -/
def plain : Trace L := ⟨b.description, b.before ++ (b.inside ++ b.rest)⟩

/-- The trace with the branch. -/
def branched : Trace L :=
  ⟨b.description, b.before ++ b.entering :: (b.inside ++ b.leaving :: b.rest)⟩

/-- The number that a step of the plain trace has in the branched one. -/
def number (i : Nat) : Nat :=
  if i < b.before.length then i
  else if i < b.before.length + b.inside.length then i + 1
  else i + 2

theorem number_of_before {i : Nat} (h : i < b.before.length) : b.number i = i := if_pos h

theorem number_of_inside {i : Nat} (hlow : b.before.length ≤ i)
    (hhigh : i < b.before.length + b.inside.length) : b.number i = i + 1 := by
  unfold number
  rw [if_neg (Nat.not_lt.2 hlow), if_pos hhigh]

theorem number_of_rest {i : Nat} (h : b.before.length + b.inside.length ≤ i) :
    b.number i = i + 2 := by
  unfold number
  rw [if_neg (Nat.not_lt.2 (Nat.le_trans (Nat.le_add_right _ _) h)), if_neg (Nat.not_lt.2 h)]

/-- Inside the branch its frame enters and leaves scopes properly, and it does not close. -/
structure Proper : Prop where
  wellNested : WellNested (bracketsOf b.frame b.inside)
  staysOpen : ∀ step ∈ b.inside, step.frame = b.frame → step.op ≠ .close

/-- On replay `r`, the branch is entered in session `s` on a value that flows to the program
counter. -/
structure Public [Level L] (r : Replay L) (s : Session L) (level : L) : Prop where
  isOpen : r.frames[b.frame]? = some s
  readable : (s.operandLevel r.heap b.condition).result = .ok level
  flows : level ≤ s.pc.level

end AddedBranch

namespace Replay

variable [Level L] {r : Replay L} {b : AddedBranch L} {s : Session L} {level : L}

/-- A frame that branches on a public value gets one scope more. -/
theorem exists_buried_of_public [LawfulBottom L] (h : b.Public r s level)
    (hunlimited : s.pc.maxDepth = none) :
    ∃ scope r', scope.tag = b.tag ∧ Does r b.entering r' ∧
      Buried b.frame scope s.pc.scopes [] r r' := by
  have hcondition : Level.join (Level.joinAll [level]) s.pc.level ≤ s.pc.level := by
    refine LawfulJoin.join_le (LawfulBottom.joinAll_le_iff.2 ?_) (LawfulJoin.le_refl _)
    simpa using h.flows
  obtain ⟨scope, pc, htag, hentered, hpc⟩ :=
    ProgramCounter.exists_buried hunlimited hcondition b.tag
  refine ⟨scope, _, htag, .action (.isOpen h.isOpen) h.readable (.enter hentered), s, pc, h.isOpen,
    hpc, ?_⟩
  rfl

/-- The replay of the branched trace ends as that of the plain one. -/
theorem endsAs_branched [LawfulBottom L] (hunlimited : r.policy.maxDepth = none)
    (hproper : b.Proper) (hpublic : b.Public (r.run b.upTo).state s level) :
    EndsAs b.number r.reset 0 b.plain.steps r.reset 0 b.branched.steps := by
  have hbefore : ∀ j, j < 0 + b.before.length → b.number j = j := by
    intro j hj
    rw [Nat.zero_add] at hj
    exact b.number_of_before hj
  refine endsAs_before hbefore fun violations r₀ hadvances hgo => ?_
  rw [Nat.zero_add]
  have hstate : (r.run b.upTo).state = r₀ := congrArg Prod.snd (hadvances.ending_run hgo)
  rw [hstate] at hpublic
  have hfollows : r₀.Follows r.policy := by
    rw [← hadvances.after_eq]
    exact (follows_new r.policy r.keepGoing).after 0 b.before
  have hmax : s.pc.maxDepth = none :=
    (hfollows.frames b.frame s hpublic.isOpen).maxDepth_eq.trans hunlimited
  obtain ⟨scope, r₁, htag, henters, hburied⟩ := exists_buried_of_public hpublic hmax
  have hinside : EndsAs b.number r₀ b.before.length (b.inside ++ b.rest) r₁ (b.before.length + 1)
      (b.inside ++ ⟨b.frame, .action (.exit scope.tag)⟩ :: b.rest) :=
    hburied.endsAs (hproper.wellNested.foldlM_next? []) hproper.staysOpen
      (fun j => b.number_of_inside) (fun j => b.number_of_rest)
  rw [htag] at hinside
  intro violations hgo
  rw [henters.ending_replaySteps]
  exact hinside violations hgo

/-- **Public branches are transparent.** Let a frame be open after some steps of a trace, let a
condition be readable there and flow to its program counter, and let scopes not be limited. A
branch on this condition may be added there, to be left after any steps among which the frame
enters and leaves scopes properly and does not close: this makes no difference but for the
numbers of the steps. The replay comes to a report with the same illegal flows, or is aborted
by the same fault, and leaves the same heap and frames, with the same locals and at the same
program counters, whether it goes on after illegal flows or stops there. If all steps are
carried out, what it leaves is the same altogether. -/
theorem run_branched [LawfulBottom L] (hunlimited : r.policy.maxDepth = none)
    (hproper : b.Proper) (hpublic : b.Public (r.run b.upTo).state s level) :
    (∀ report, (r.run b.plain).result = .ok report →
      (r.keepGoing = true ∨ report.violations = [] →
        (r.run b.branched).result = .ok ⟨report.stepsExecuted + 2,
          report.violations.map (·.renumber b.number)⟩ ∧
        (r.run b.branched).state = (r.run b.plain).state) ∧
      (¬ (r.keepGoing = true ∨ report.violations = []) →
        (r.run b.branched).result = .ok ⟨b.number (report.stepsExecuted - 1) + 1,
          report.violations.map (·.renumber b.number)⟩)) ∧
    (∀ e, (r.run b.plain).result = .error e →
      (r.run b.branched).result = .error (e.atStep (b.number e.step))) ∧
    (r.run b.plain).state.Alike (r.run b.branched).state := by
  have hends := endsAs_branched hunlimited hproper hpublic [] (Or.inr rfl)
  have hsame : SameEnd b.number r.keepGoing (r.run b.plain).ending (r.run b.branched).ending := by
    rw [ending_run, ending_run]
    exact hends
  unfold Outcome.ending at hsame
  generalize (r.run b.plain).result = result, (r.run b.plain).state = final,
    (r.run b.branched).result = result', (r.run b.branched).state = final' at hsame ⊢
  cases hsame with
  | finished goesOn =>
      refine ⟨?_, nofun, .refl final⟩
      rintro report ⟨⟩
      exact ⟨fun _ => ⟨rfl, rfl⟩, fun hstops => absurd goesOn hstops⟩
  | stopped stops alike =>
      refine ⟨?_, nofun, alike⟩
      rintro report ⟨⟩
      exact ⟨fun hgo => absurd hgo stops, fun _ => rfl⟩
  | aborted alike =>
      refine ⟨nofun, ?_, alike⟩
      rintro e ⟨⟩
      rfl

section Witness

/-- In a branch on a secret, the frame branches on the same secret again. In this branch it
calls another frame, which is kept from a public sink, and enters and leaves one more. -/
def secretAgain : AddedBranch TwoLevel where
  description := ""
  before :=
    [⟨"main", .action (.declare "x")⟩, ⟨"main", .action (.label "x" .high)⟩,
      ⟨"main", .action (.enter ⟨"outer"⟩ [.local "x"])⟩]
  inside :=
    [⟨"main", .call "f" [.constant]⟩, ⟨"main", .action (.enter ⟨"again"⟩ [])⟩,
      ⟨"f", .action (.bindArgument 0 "a")⟩, ⟨"f", .action (.checkSink "a" .low)⟩,
      ⟨"main", .action (.exit ⟨"again"⟩)⟩]
  rest :=
    [⟨"main", .action (.exit ⟨"outer"⟩)⟩, ⟨"main", .action (.checkBelowTop "x")⟩]
  frame := "main"
  tag := ⟨"again"⟩
  condition := [.local "x"]

theorem secretAgain_proper : secretAgain.Proper where
  wellNested := .scope ⟨"again"⟩ .nil .nil
  staysOpen := by decide

/-- Both replays report the two illegal flows, one of them in the branch and one after it. -/
theorem run_branched_secretAgain :
    secretAgain.Proper ∧
      (∃ s, secretAgain.Public ((new {} true : Replay TwoLevel).run secretAgain.upTo).state s
        .high) ∧
      ∃ report, ((new {} true : Replay TwoLevel).run secretAgain.plain).result = .ok report ∧
        report.violations.map (·.step) = [6, 9] ∧ [6, 9].map secretAgain.number = [7, 11] ∧
        ((new {} true : Replay TwoLevel).run secretAgain.branched).result =
          .ok ⟨12, report.violations.map (·.renumber secretAgain.number)⟩ ∧
        ((new {} true : Replay TwoLevel).run secretAgain.branched).state =
          ((new {} true : Replay TwoLevel).run secretAgain.plain).state := by
  have hpublic : ∃ s, secretAgain.Public
      ((new {} true : Replay TwoLevel).run secretAgain.upTo).state s .high :=
    ⟨_, by rfl, by rfl, by decide⟩
  obtain ⟨report, hreport, hexecuted, hsteps⟩ : ∃ report,
      ((new {} true : Replay TwoLevel).run secretAgain.plain).result = .ok report ∧
        report.stepsExecuted = 10 ∧ report.violations.map (·.step) = [6, 9] :=
    ⟨_, by rfl, by rfl, by rfl⟩
  obtain ⟨s, hs⟩ := hpublic
  obtain ⟨hresult, hstate⟩ :=
    ((run_branched rfl secretAgain_proper hs).1 report hreport).1 (Or.inl rfl)
  rw [hexecuted] at hresult
  exact ⟨secretAgain_proper, ⟨s, hs⟩, report, hreport, hsteps, rfl, hresult, hstate⟩

end Witness

end Replay

end InfoFlow
