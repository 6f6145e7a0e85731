import Mathlib.Logic.Function.Basic
import InfoFlow.Proofs.ProgramCounter.WellNested
import InfoFlow.Proofs.Replay.Leniency
import InfoFlow.Proofs.Session.Step

/-!
# The branch scopes of a frame

A frame enters and leaves branch scopes by steps of its own. `Words` follows, for every
frame, the brackets that its current activation has executed; an activation begins when
the frame is opened. The open scopes of a session are what its word leaves open
(`Spells`), whatever the other frames do meanwhile, so that words alone decide which scopes
may be entered and left, and when the frame may close (`scopes_wellNested`).
-/

namespace InfoFlow

open Function (update)

variable {L : Type}

/-! ## §1  The tags of the open scopes -/

namespace ProgramCounter

variable {pc pc' : ProgramCounter L} {tag : Tag}

theorem length_openTags (pc : ProgramCounter L) : pc.openTags.length = pc.depth := by
  simp [openTags, depth]

theorem openTags_enter [Level L] {condition : L} (h : pc.enter condition tag = .ok pc') :
    pc'.openTags = pc.openTags ++ [tag] := by
  obtain ⟨-, rfl⟩ := enter_eq_ok.1 h
  simp [openTags]

theorem openTags_leave (h : pc.leave tag = .ok pc') : pc.openTags = pc'.openTags ++ [tag] := by
  obtain ⟨scope, outer, hscopes, rfl, rfl⟩ := leave_eq_ok.1 h
  simp [openTags, hscopes]

/-- The innermost scope can be left, by its tag; every other tag is refused. -/
theorem leave_cases (pc : ProgramCounter L) (tag : Tag) :
    (pc.openTags.getLast? = some tag ∧ ∃ pc', pc.leave tag = .ok pc') ∨
      pc.openTags.getLast? ≠ some tag ∧
        pc.leave tag = .error (.wrongExit pc.openTags.getLast? tag) := by
  have hlast : pc.openTags.getLast? = pc.scopes.head?.map (·.tag) := by
    simp [openTags]
  rw [hlast]
  unfold leave
  cases pc.scopes with
  | nil => exact Or.inr ⟨nofun, rfl⟩
  | cons scope outer =>
      by_cases htag : scope.tag = tag
      · exact Or.inl ⟨congrArg some htag, _, if_pos htag⟩
      · exact Or.inr ⟨fun hsame => htag (Option.some.inj hsame), if_neg htag⟩

end ProgramCounter

/-! ## §2  Words -/

/-- The brackets that an action executes if it succeeds. -/
def Action.brackets : Action L → List Bracket
  | .enter tag _ => [.opens tag]
  | .exit tag => [.closes tag]
  | _ => []

/-- For every frame, the brackets that its activation has executed. -/
abbrev Words := String → List Bracket

namespace Words

def start : Words := fun _ => []

/-- A frame that is not open is at the beginning of an activation. -/
def current (words : Words) (r : Replay L) (frame : String) : List Bracket :=
  if r.frames.contains frame then words frame else []

variable [Level L]

/-- What a step makes of the words. -/
def next (words : Words) (r : Replay L) (index : Nat) (step : Step L) : Words :=
  let word := words.current r step.frame
  match step.op, (r.apply index step).result with
  | .action action, .ok () => update words step.frame (word ++ action.brackets)
  | .call callee _, .ok () => update (update words step.frame word) callee []
  | _, _ => update words step.frame word

/-- The words after these steps, the first of which has number `index`. -/
def after (words : Words) (r : Replay L) (index : Nat) : List (Step L) → Words
  | [] => words
  | step :: steps => (words.next r index step).after (r.apply index step).state (index + 1) steps

end Words

/-! ## §3  What a word says of a session -/

/-- The session of `frame` has the scopes open that `word` leaves open. -/
structure Spells (frame : String) (word : List Bracket) (s : Session L) : Prop where
  frame_eq : s.frame = frame
  unmatched : Unmatched word s.pc.openTags
  within : Within s.pc.maxDepth word

section Session

variable [Level L] {s s' : Session L} {heap heap' : Heap L} {reply : Reply L} {frame : String}
  {word : List Bracket}

theorem Operation.Succeeds.frame_eq {op : Operation L} (h : op.Succeeds s heap reply s' heap') :
    s'.frame = s.frame := by
  cases h <;> rfl

theorem Spells.of_pc_eq {op : Operation L} (h : Spells frame word s)
    (hrule : op.Succeeds s heap reply s' heap') (hpc : s'.pc = s.pc) : Spells frame word s' where
  frame_eq := hrule.frame_eq.trans h.frame_eq
  unmatched := hpc ▸ h.unmatched
  within := hpc ▸ h.within

omit [Level L] in
theorem spells_nil (h : s.frame = frame) (hscopes : s.pc.scopes = []) : Spells frame [] s where
  frame_eq := h
  unmatched := by
    unfold ProgramCounter.openTags
    rw [hscopes]
    exact .none .nil
  within := within_nil

/-- **An action that succeeds executes its brackets.** -/
theorem Spells.action {action : Action L} {level : L} (h : Spells frame word s)
    (hrule : (action.operation level).Succeeds s heap reply s' heap') :
    Spells frame (word ++ action.brackets) s' := by
  have hframe := hrule.frame_eq.trans h.frame_eq
  rcases action.scope_cases with ⟨tag, condition, rfl⟩ | ⟨tag, rfl⟩ | ⟨henters, hexits⟩
  · cases hrule with
    | enter entered =>
        have htags := ProgramCounter.openTags_enter entered
        obtain ⟨hlimit, hpc⟩ := ProgramCounter.enter_eq_ok.1 entered
        refine ⟨hframe, ?_, ?_⟩
        · show Unmatched (word ++ [.opens tag]) _
          rw [htags]
          exact h.unmatched.concat_opens tag
        · show Within _ (word ++ [.opens tag])
          rw [hpc, h.unmatched.within_opens h.within]
          intro most hmost
          rw [ProgramCounter.length_openTags]
          exact ProgramCounter.limitReached?_eq_none.1 hlimit most hmost
  · cases hrule with
    | exit left =>
        have htags := ProgramCounter.openTags_leave left
        obtain ⟨scope, outer, -, -, hpc⟩ := ProgramCounter.leave_eq_ok.1 left
        refine ⟨hframe, ?_, ?_⟩
        · exact (htags ▸ h.unmatched).concat_closes
        · show Within _ (word ++ [.closes tag])
          rw [hpc]
          exact h.within.closes tag
  · have hnone : action.brackets = [] := by
      cases action with
      | enter tag condition => exact absurd trivial henters
      | exit tag => exact absurd trivial hexits
      | _ => rfl
    rw [hnone, List.append_nil]
    exact h.of_pc_eq hrule (Action.pc_eq_of_succeeds henters hexits hrule)

end Session

/-! ## §4  What the words say of a replay -/

namespace Words

/-- Every open frame has the scopes open that its word leaves open. -/
def Describe (words : Words) (r : Replay L) : Prop :=
  ∀ f s, r.frames[f]? = some s → Spells f (words f) s

variable {words : Words} {r r₁ r' : Replay L} {frame callee : String} {s : Session L}
  {word : List Bracket}

theorem current_of_some (found : r.frames[frame]? = some s) :
    words.current r frame = words frame := by
  unfold current
  rw [Replay.contains_frames, found]
  rfl

theorem current_of_none (absent : r.frames[frame]? = none) : words.current r frame = [] := by
  unfold current
  rw [Replay.contains_frames, absent]
  rfl

/-- What changes is the session or the word of one frame. -/
theorem Describe.update (h : words.Describe r)
    (hframe : ∀ s, r'.frames[frame]? = some s → Spells frame word s)
    (hothers : ∀ f s, f ≠ frame → r'.frames[f]? = some s → r.frames[f]? = some s) :
    Describe (Function.update words frame word) r' := by
  intro f s hf
  by_cases hsame : f = frame
  · subst hsame
    rw [Function.update_self]
    exact hframe s hf
  · rw [Function.update_of_ne hsame]
    exact h f s (hothers f s hsame hf)

theorem describe_start (policy : Policy) (keepGoing : Bool) :
    start.Describe (.new policy keepGoing : Replay L) := by
  intro f s hf
  exact absurd (hf.symm.trans Std.ExtTreeMap.getElem?_empty) (Option.some_ne_none s)

theorem Describe.begin (h : words.Describe r) (frame : String) :
    Describe (Function.update words frame (words.current r frame)) r := by
  refine h.update (fun s found => ?_) fun f s _ hf => hf
  rw [current_of_some found]
  exact h frame s found

theorem Describe.setSession (h : words.Describe r) (hs : Spells frame word s) (heap : Heap L) :
    Describe (Function.update words frame word)
      ({ r.setSession frame s with heap := heap } : Replay L) := by
  have hframes := Replay.frames_setSession r frame s
  refine h.update (fun other hother => ?_) fun f other hne hother => ?_
  · have hfound := (hframes frame).symm.trans hother
    rw [if_pos rfl] at hfound
    cases hfound
    exact hs
  · have hfound := (hframes f).symm.trans hother
    rwa [if_neg hne] at hfound

theorem Describe.openFrame (h : words.Describe r) (hs : Spells callee [] s) :
    Describe (Function.update words callee []) (r.openFrame callee s) := by
  refine h.update (fun other hother => ?_) fun f other hne hother => ?_
  · rw [Replay.frames_openFrame, if_pos rfl] at hother
    cases hother
    exact hs
  · rwa [Replay.frames_openFrame, if_neg hne] at hother

theorem Describe.closeFrame (h : words.Describe r) (returned : Option L) :
    words.Describe (r.closeFrame frame returned) := by
  intro f s hf
  rw [Replay.frames_closeFrame] at hf
  split at hf
  · cases hf
  · exact h f s hf

variable [Level L] {step : Step L}

/-- A step gets hold of a session at the beginning of its activation, or in it. -/
theorem Describe.acts (h : words.Describe r) (hacts : r.Acts frame s r₁) :
    Describe (Function.update words frame (words.current r frame)) r₁ := by
  cases hacts with
  | isOpen found => exact h.begin frame
  | opens absent fresh =>
      rw [current_of_none absent]
      refine h.update (fun other hother => ?_) fun f other hne hother => ?_
      · rw [Replay.frames_openRoot, if_pos rfl] at hother
        cases hother
        exact spells_nil rfl rfl
      · rwa [Replay.frames_openRoot, if_neg hne] at hother

theorem Describe.session (h : words.Describe r) (hacts : r.Acts frame s r₁) :
    Spells frame (words.current r frame) s := by
  have hs := h.acts hacts frame s hacts.found
  rwa [Function.update_self] at hs

theorem Describe.does (h : words.Describe r) (hdoes : r.Does step r') (index : Nat) :
    Describe (words.next r index step) r' := by
  have hresult := (Replay.apply_of_does hdoes index).1
  unfold next
  cases hdoes with
  | @action frame action s s' r₁ level reply heap' acts operands rule =>
      simp only [hresult]
      have hs := (h.session acts).action rule
      have hr := (h.acts acts).setSession hs heap'
      rwa [Function.update_idem] at hr
  | @call frame callee arguments s r₁ levels absent acts operands =>
      simp only [hresult]
      exact (h.acts acts).openFrame (spells_nil rfl rfl)
  | @close frame s r₁ acts balanced => exact (h.acts acts).closeFrame _
  | @takeReturn frame callee name returned s s' r₁ reply heap' closed acts rule =>
      have hpc : s'.pc = s.pc := by
        cases rule
        rfl
      have hs := (h.session acts).of_pc_eq rule hpc
      have hr := (h.acts acts).setSession hs heap'
      rwa [Function.update_idem] at hr

theorem Describe.stops {fault : Nat → ReplayFault} (h : words.Describe r)
    (hstops : r.Stops step fault r') (index : Nat) : Describe (words.next r index step) r' := by
  have hnext : words.next r index step =
      Function.update words step.frame (words.current r step.frame) := by
    unfold next
    rw [(Replay.apply_of_stops hstops index).1]
    cases step.op <;> rfl
  rw [hnext]
  rcases hstops.state_cases with rfl | ⟨s, hacts⟩
  · exact h.begin step.frame
  · exact h.acts hacts

theorem Describe.apply (h : words.Describe r) (index : Nat) (step : Step L) :
    Describe (words.next r index step) (r.apply index step).state := by
  rcases r.does_or_stops step with ⟨r', hdoes⟩ | ⟨fault, r', hstops⟩
  · rw [(Replay.apply_of_does hdoes index).2]
    exact h.does hdoes index
  · rw [(Replay.apply_of_stops hstops index).2]
    exact h.stops hstops index

/-- **The words describe the open frames** after any steps. -/
theorem Describe.after (h : words.Describe r) (index : Nat) (steps : List (Step L)) :
    Describe (words.after r index steps) (r.after index steps) := by
  induction steps generalizing r words index with
  | nil => exact h
  | cons step steps ih => exact ih (h.apply index step) (index + 1)

end Words

namespace Replay

variable [Level L] {r : Replay L} {policy : Policy} {frame : String} {s : Session L} {index : Nat}

/-! ## §5  The policy of every state -/

theorem Follows.apply (h : r.Follows policy) (index : Nat) (step : Step L) :
    (r.apply index step).state.Follows policy := by
  rcases r.apply_cases index step with ⟨-, hdoes⟩ | ⟨-, hsame | ⟨s, hacts⟩⟩
  · exact h.does hdoes
  · rw [hsame]
    exact h
  · exact h.acts hacts

theorem Follows.after (h : r.Follows policy) (index : Nat) (steps : List (Step L)) :
    (r.after index steps).Follows policy := by
  induction steps generalizing r index with
  | nil => exact h
  | cons step steps ih => exact ih (h.apply index step) (index + 1)

/-! ## §6  Steps of other frames -/

/-- A step of another frame leaves an open frame its session, and its word. -/
theorem unaffected {f : String} (words : Words) (found : r.frames[f]? = some s) (index : Nat)
    {step : Step L} (hne : f ≠ step.frame) :
    (r.apply index step).state.frames[f]? = some s ∧ words.next r index step f = words f := by
  have hsame : ∀ word, update words step.frame word f = words f :=
    fun word => Function.update_of_ne hne word words
  have hset : ∀ {s₁ : Session L} {r₁ : Replay L} (s' : Session L), r.Acts step.frame s₁ r₁ →
      (r₁.setSession step.frame s').frames[f]? = some s := by
    intro s₁ r₁ s' acts
    rw [frames_setSession, if_neg hne]
    exact acts.frames_of_some found
  rcases r.does_or_stops step with ⟨r', hdoes⟩ | ⟨fault, r', hstops⟩
  · obtain ⟨hresult, hstate⟩ := apply_of_does hdoes index
    unfold Words.next
    rw [hstate]
    cases hdoes with
    | @action frame action s₁ s' r₁ level reply heap' acts operands rule =>
        refine ⟨?_, by simp only [hresult, hsame]⟩
        exact hset s' acts
    | @call frame callee arguments s₁ r₁ levels absent acts operands =>
        have hcallee : f ≠ callee := by
          rintro rfl
          rw [absent] at found
          cases found
        refine ⟨?_, by simp only [hresult, Function.update_of_ne hcallee, hsame]⟩
        rw [frames_openFrame, if_neg hcallee]
        exact acts.frames_of_some found
    | @close frame s₁ r₁ acts balanced =>
        refine ⟨?_, hsame _⟩
        rw [frames_closeFrame, if_neg hne]
        exact acts.frames_of_some found
    | @takeReturn frame callee name returned s₁ s' r₁ reply heap' closed acts rule =>
        refine ⟨?_, hsame _⟩
        exact hset s' acts
  · obtain ⟨hresult, hstate⟩ := apply_of_stops hstops index
    have hnext : words.next r index step f = words f := by
      unfold Words.next
      rw [hresult]
      cases step.op <;> exact hsame _
    refine ⟨?_, hnext⟩
    rw [hstate]
    rcases hstops.state_cases with rfl | ⟨s₁, hacts⟩
    · exact found
    · exact hacts.frames_of_some found

/-! ## §7  The next step of an open frame -/

/-- A step that succeeds if this holds, and is refused otherwise. -/
theorem ok_iff_of_cases {holds refused : Prop} {result : Except ReplayFault Unit}
    (h : (holds ∧ result = .ok ()) ∨ ¬holds ∧ refused) (hrefused : refused → result ≠ .ok ()) :
    (result = .ok () ↔ holds) ∧ (¬holds → refused) := by
  rcases h with ⟨hholds, hok⟩ | ⟨hnot, href⟩
  · exact ⟨⟨fun _ => hholds, fun _ => hok⟩, fun hnot => absurd hholds hnot⟩
  · exact ⟨⟨fun hok => absurd hok (hrefused href), fun hholds => absurd hholds hnot⟩, fun _ => href⟩

/-- An action of an open frame whose operands can be read ends as the operation does. -/
theorem result_of_operands (action : Action L) (found : r.frames[frame]? = some s) {level : L}
    (operands : (s.operandLevel r.heap action.operands).result = .ok level) (index : Nat) :
    (∀ {reply s' heap'}, (action.operation level).Succeeds s r.heap reply s' heap' →
        (r.apply index ⟨frame, .action action⟩).result = .ok ()) ∧
      ∀ {cause}, (action.operation level).Fails s r.heap cause →
        (r.apply index ⟨frame, .action action⟩).result = .error (.fault index frame cause) :=
  ⟨fun rule => (apply_of_does (.action (.isOpen found) operands rule) index).1,
    fun fault => (apply_of_stops (.action (.isOpen found) operands fault) index).1⟩

/-- A scope is left by the tag of the innermost one. -/
theorem exit_cases (found : r.frames[frame]? = some s) (index : Nat) (tag : Tag) :
    let result := (r.apply index ⟨frame, .action (.exit tag)⟩).result
    (s.pc.openTags.getLast? = some tag ∧ result = .ok ()) ∨
      s.pc.openTags.getLast? ≠ some tag ∧
        result = .error (.fault index frame (.wrongExit s.pc.openTags.getLast? tag)) := by
  obtain ⟨hok, herror⟩ := result_of_operands (.exit tag) found rfl index
  rcases s.pc.leave_cases tag with ⟨hlast, pc', hleave⟩ | ⟨hlast, hleave⟩
  · exact Or.inl ⟨hlast, hok (.exit hleave)⟩
  · exact Or.inr ⟨hlast, herror (.exit hleave)⟩

/-- A scope is entered while there is room. -/
theorem enter_cases (found : r.frames[frame]? = some s) (index : Nat) (tag : Tag)
    {condition : List (Operand L)} {level : L}
    (operands : (s.operandLevel r.heap condition).result = .ok level) :
    let result := (r.apply index ⟨frame, .action (.enter tag condition)⟩).result
    ((∀ most, s.pc.maxDepth = some most → s.pc.depth < most.toNat) ∧ result = .ok ()) ∨
      (¬∀ most, s.pc.maxDepth = some most → s.pc.depth < most.toNat) ∧
        ∃ most, s.pc.maxDepth = some most ∧
          result = .error (.fault index frame (.tooDeep most)) := by
  obtain ⟨hok, herror⟩ := result_of_operands (.enter tag condition) found operands index
  cases hlimit : s.pc.limitReached? with
  | none =>
      have hroom := ProgramCounter.limitReached?_eq_none.1 hlimit
      exact Or.inl ⟨hroom, hok (.enter (ProgramCounter.enter_eq_ok.2 ⟨hlimit, rfl⟩))⟩
  | some most =>
      obtain ⟨hmost, hfull⟩ := Option.filter_eq_some_iff.1 hlimit
      have hnoRoom : ¬∀ most, s.pc.maxDepth = some most → s.pc.depth < most.toNat :=
        fun hroom => Nat.not_lt.2 (of_decide_eq_true hfull) (hroom most hmost)
      exact Or.inr ⟨hnoRoom, most, hmost, herror (.enter hlimit)⟩

/-- A frame that has to be balanced closes when no scope is open. -/
theorem close_cases (found : r.frames[frame]? = some s) (hbalanced : s.policy.balancedClose = true)
    (index : Nat) :
    let result := (r.apply index ⟨frame, .close⟩).result
    (s.pc.openTags = [] ∧ result = .ok ()) ∨
      s.pc.openTags ≠ [] ∧
        result = .error (.fault index frame (.unbalanced s.frame s.pc.depth)) := by
  have hempty : s.pc.isEmpty = true ↔ s.pc.openTags = [] := by
    simp [ProgramCounter.isEmpty, ProgramCounter.openTags]
  have hcheck : s.checkClose =
      if s.pc.isEmpty then .ok () else .error (.unbalanced s.frame s.pc.depth) := by
    unfold Session.checkClose
    rw [hbalanced]
    cases s.pc.isEmpty <;> rfl
  by_cases htags : s.pc.openTags = []
  · rw [if_pos (hempty.2 htags)] at hcheck
    exact Or.inl ⟨htags, (apply_of_does (.close (.isOpen found) hcheck) index).1⟩
  · rw [if_neg (mt hempty.1 htags)] at hcheck
    exact Or.inr ⟨htags, (apply_of_stops (.close (.isOpen found) hcheck) index).1⟩

/-! ## §8  Scopes are well-nested -/

/-- **Branch scopes accept exactly the well-nested words.** After any steps of any frames,
the word of each open frame is the beginning of a well-nested one within the limit, which
under a limit of zero is empty; the open scopes are those that it leaves open, and steps of
other frames change neither. The next step of the frame leaves a scope exactly if its word
stays such a beginning, enters one exactly if its word stays within the limit, provided
that the condition can be read, and closes the frame, where this is checked, exactly if the
word is well-nested. Otherwise the step fails and says why. -/
theorem scopes_wellNested (policy : Policy) (keepGoing : Bool) (steps : List (Step L)) :
    let r := (new policy keepGoing : Replay L).after 0 steps
    let words := Words.start.after (new policy keepGoing : Replay L) 0 steps
    ∀ f s, r.frames[f]? = some s →
      (Legal policy.maxDepth (words f) ∧ (policy.maxDepth = some 0 → words f = []) ∧
        (∀ tags, Unmatched (words f) tags ↔ tags = s.pc.openTags) ∧
        s.pc.depth = s.pc.openTags.length) ∧
      (∀ index step, f ≠ step.frame → (r.apply index step).state.frames[f]? = some s ∧
        words.next r index step f = words f) ∧
      (∀ index tag, let result := (r.apply index ⟨f, .action (.exit tag)⟩).result
        (result = .ok () ↔ Legal policy.maxDepth (words f ++ [.closes tag])) ∧
          (¬Legal policy.maxDepth (words f ++ [.closes tag]) →
            result = .error (.fault index f (.wrongExit s.pc.openTags.getLast? tag)))) ∧
      (∀ index tag condition level, (s.operandLevel r.heap condition).result = .ok level →
        let result := (r.apply index ⟨f, .action (.enter tag condition)⟩).result
        (result = .ok () ↔ Within policy.maxDepth (words f ++ [.opens tag])) ∧
          (¬Within policy.maxDepth (words f ++ [.opens tag]) →
            ∃ most, policy.maxDepth = some most ∧
              result = .error (.fault index f (.tooDeep most)))) ∧
      (policy.balancedClose = true → ∀ index,
        let result := (r.apply index ⟨f, .close⟩).result
        (result = .ok () ↔ WellNested (words f)) ∧
          (¬WellNested (words f) →
            result = .error (.fault index f (.unbalanced f s.pc.openTags.length)))) := by
  intro r words f s found
  have hspells : Spells f (words f) s :=
    (Words.describe_start policy keepGoing).after 0 steps f s found
  have hpolicy : s.Follows policy := ((follows_new policy keepGoing).after 0 steps).frames f s found
  have hwithin : Within policy.maxDepth (words f) := hpolicy.maxDepth_eq ▸ hspells.within
  have hlegal := hspells.unmatched.legal hwithin
  refine ⟨⟨hlegal, ?_, ?_, s.pc.length_openTags.symm⟩, ?_, ?_, ?_, ?_⟩
  · intro hzero
    exact (hzero ▸ hlegal).eq_nil
  · intro tags
    constructor
    · exact fun htags => hspells.unmatched.eq htags
    · rintro rfl
      exact hspells.unmatched
  · intro index step hne
    exact unaffected words found index hne
  · intro index tag
    rw [hspells.unmatched.legal_closes hwithin]
    refine ok_iff_of_cases (exit_cases found index tag) fun hrefused => ?_
    rw [hrefused]
    nofun
  · intro index tag condition level operands
    rw [hspells.unmatched.within_opens hwithin, s.pc.length_openTags, ← hpolicy.maxDepth_eq]
    refine ok_iff_of_cases (enter_cases found index tag operands) fun hrefused => ?_
    obtain ⟨most, -, hresult⟩ := hrefused
    rw [hresult]
    nofun
  · intro hbalanced index
    rw [← hpolicy.policy_eq] at hbalanced
    have hnested : WellNested (words f) ↔ s.pc.openTags = [] := by
      rw [← unmatched_nil_iff]
      exact ⟨fun hnil => (hspells.unmatched.eq hnil).symm, fun hnil => hnil ▸ hspells.unmatched⟩
    have hclose := close_cases found hbalanced index
    rw [hspells.frame_eq, ← s.pc.length_openTags] at hclose
    rw [hnested]
    refine ok_iff_of_cases hclose fun hrefused => ?_
    rw [hrefused]
    nofun

section Witness

/-- A frame calls another inside a branch, and the callee enters a branch of its own. -/
def callInBranch : List (Step TwoLevel) :=
  [⟨"main", .action (.enter ⟨"a"⟩ [.constant])⟩, ⟨"main", .call "f" []⟩,
    ⟨"f", .action (.enter ⟨"b"⟩ [])⟩]

/-- The caller can leave its branch, but not that of the callee; it can enter no other one,
and it cannot close. -/
theorem scopes_wellNested_callInBranch :
    let r := (new { maxDepth := some 1 } false : Replay TwoLevel).after 0 callInBranch
    (r.apply 3 ⟨"main", .action (.exit ⟨"a"⟩)⟩).result = .ok () ∧
      (r.apply 3 ⟨"main", .action (.exit ⟨"b"⟩)⟩).result =
        .error (.fault 3 "main" (.wrongExit (some ⟨"a"⟩) ⟨"b"⟩)) ∧
      (r.apply 3 ⟨"main", .action (.enter ⟨"a"⟩ [])⟩).result ≠ .ok () ∧
      (r.apply 3 ⟨"main", .close⟩).result = .error (.fault 3 "main" (.unbalanced "main" 1)) ∧
      ∃ s, (r.apply 3 ⟨"f", .action (.exit ⟨"b"⟩)⟩).state.frames["main"]? = some s := by
  intro r
  obtain ⟨s, found⟩ : ∃ s, r.frames["main"]? = some s := ⟨_, by rfl⟩
  have hword : Words.start.after (new { maxDepth := some 1 } false : Replay TwoLevel) 0
      callInBranch "main" = [.opens ⟨"a"⟩] := by rfl
  obtain ⟨⟨hlegal, -, htags, -⟩, hothers, hexit, henter, hclose⟩ :=
    scopes_wellNested { maxDepth := some 1 } false callInBranch "main" s found
  rw [hword] at hlegal
  simp only [hword] at htags hexit henter hclose
  obtain ⟨-, hwithin⟩ := legal_iff.1 hlegal
  have hopen : Unmatched [.opens ⟨"a"⟩] [⟨"a"⟩] := .opens .nil ⟨"a"⟩ (.none .nil)
  have hopenTags : s.pc.openTags = [⟨"a"⟩] := ((htags _).1 hopen).symm
  rw [hopenTags] at hexit hclose
  refine ⟨?_, ?_, ?_, ?_, s, (hothers 3 _ (by decide)).1⟩
  · exact (hexit 3 ⟨"a"⟩).1.2 ((hopen.legal_closes hwithin).2 rfl)
  · exact (hexit 3 ⟨"b"⟩).2 fun h => absurd ((hopen.legal_closes hwithin).1 h) (by decide)
  · intro hok
    have hroom := (henter 3 ⟨"a"⟩ [] .low rfl).1.1 hok
    exact absurd ((hopen.within_opens hwithin).1 hroom 1 rfl) (by decide)
  · refine (hclose trivial 3).2 fun h => ?_
    exact absurd (hopen.eq (unmatched_nil_iff.2 h)) (by decide)

end Witness

end Replay

end InfoFlow
