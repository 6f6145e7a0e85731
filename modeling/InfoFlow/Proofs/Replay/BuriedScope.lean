import InfoFlow.Proofs.Replay.Scopes
import InfoFlow.Proofs.Session.BuriedScope

/-!
# One scope more in a frame

Two replays may differ by one scope of a frame that is at the level of the scopes around it
(`Buried`). Steps of other frames do not look at the session of this frame at all. Steps of
the frame itself look at the level of the program counter only, or they enter and leave
scopes inside the one that makes the difference; these are told by the brackets of the steps.
So both replays do the same steps, and stop at the same ones (`Buried.does`,
`Buried.stops`), as long as the frame leaves no scope that it has not entered inside, and
does not close.
-/

namespace InfoFlow

open ProgramCounter (Buried)
open Level (bottom)

variable {L : Type}

/-! ## §1  Brackets -/

/-- The brackets of one frame that a step executes if it succeeds. -/
def Step.brackets (frame : String) (step : Step L) : List Bracket :=
  if step.frame = frame then
    match step.op with
    | .action action => action.brackets
    | _ => []
  else []

/-- The brackets of one frame in a part of a trace. -/
def bracketsOf (frame : String) (steps : List (Step L)) : List Bracket :=
  steps.flatMap (·.brackets frame)

theorem Bracket.next?_of_foldlM {bracket : Bracket} {tags tags' : List Tag}
    (h : [bracket].foldlM Bracket.next? tags = some tags') :
    Bracket.next? tags bracket = some tags' := by
  simpa using h

namespace Action

variable [Level L] {action : Action L} {level : L} {s s' : Session L} {heap heap' : Heap L}
  {reply : Reply L} {cause : Fault} {scope : Scope L} {outer : List (Scope L)}
  {tags tags' : List Tag} {pc : ProgramCounter L}

omit [Level L] in
theorem seesLevel (henters : ¬ action.Enters) (hexits : ¬ action.Exits) (level : L) :
    (action.operation level).SeesLevel := by
  cases action with
  | enter tag condition => exact absurd trivial henters
  | exit tag => exact absurd trivial hexits
  | _ => exact trivial

omit [Level L] in
theorem brackets_eq_nil (henters : ¬ action.Enters) (hexits : ¬ action.Exits) :
    action.brackets = [] := by
  cases action with
  | enter tag condition => exact absurd trivial henters
  | exit tag => exact absurd trivial hexits
  | _ => rfl

/-- **An action does the same with the scope and without it**, if its bracket fits the scopes
inside it. -/
theorem succeeds_buried (h : (action.operation level).Succeeds s heap reply s' heap')
    (hpc : Buried scope outer tags s.pc pc)
    (hword : action.brackets.foldlM Bracket.next? tags = some tags') :
    ∃ reply' pc',
      (action.operation level).Succeeds (s.withPc pc) heap reply' (s'.withPc pc') heap' ∧
        Buried scope outer tags' s'.pc pc' := by
  rcases action.scope_cases with ⟨tag, condition, rfl⟩ | ⟨tag, rfl⟩ | ⟨henters, hexits⟩
  · cases Bracket.next?_of_foldlM hword
    exact h.buried_enter hpc
  · obtain rfl := Bracket.next?_closes.1 (Bracket.next?_of_foldlM hword)
    exact h.buried_exit hpc
  · rw [brackets_eq_nil henters hexits] at hword
    cases hword
    exact ⟨reply, pc, h.buried_of_seesLevel (seesLevel henters hexits level) hpc⟩

/-- An action that fails neither enters nor leaves a scope, and fails with the scope, too. -/
theorem fails_buried (h : (action.operation level).Fails s heap cause)
    (hpc : Buried scope outer tags s.pc pc)
    (hword : action.brackets.foldlM Bracket.next? tags = some tags') :
    (action.operation level).Fails (s.withPc pc) heap cause ∧ tags' = tags := by
  rcases action.scope_cases with ⟨tag, condition, rfl⟩ | ⟨tag, rfl⟩ | ⟨henters, hexits⟩
  · exact absurd h (Operation.not_fails_enter hpc.unlimited)
  · obtain rfl := Bracket.next?_closes.1 (Bracket.next?_of_foldlM hword)
    exact absurd h (Operation.not_fails_exit hpc)
  · rw [brackets_eq_nil henters hexits] at hword
    cases hword
    exact ⟨h.withPc (seesLevel henters hexits level) hpc.level_eq, rfl⟩

end Action

/-! ## §2  Steps of other frames -/

namespace Replay

variable {r r' r₁ : Replay L} {frame : String} {s t : Session L} {step : Step L}
  {fault : Nat → ReplayFault}

theorem setSession_setSession (r : Replay L) (frame : String) (s t : Session L) :
    (r.setSession frame s).setSession frame t = r.setSession frame t := by
  unfold setSession
  rw [FiniteMap.insert_insert]

theorem setSession_of_ne (r : Replay L) {f g : String} (hne : g ≠ f) (s t : Session L)
    (heap : Heap L) :
    ({ r.setSession g s with heap := heap } : Replay L).setSession f t =
      { (r.setSession f t).setSession g s with heap := heap } := by
  unfold setSession
  rw [FiniteMap.insert_insert_of_ne r.frames hne]

theorem openRoot_setSession (r : Replay L) {f g : String} (hne : g ≠ f) (s t : Session L) :
    (r.openRoot g s).setSession f t = (r.setSession f t).openRoot g s := by
  unfold setSession openRoot
  rw [FiniteMap.insert_insert_of_ne r.frames hne]

theorem openFrame_setSession (r : Replay L) {f g : String} (hne : g ≠ f) (s t : Session L) :
    (r.openFrame g s).setSession f t = (r.setSession f t).openFrame g s := by
  unfold setSession openFrame
  rw [FiniteMap.insert_insert_of_ne r.frames hne]

theorem closeFrame_setSession (r : Replay L) {f g : String} (hne : g ≠ f) (returned : Option L)
    (t : Session L) :
    (r.closeFrame g returned).setSession f t = (r.setSession f t).closeFrame g returned := by
  unfold setSession closeFrame
  rw [FiniteMap.erase_insert_of_ne r.frames hne]

variable [Level L]

theorem Acts.setSession_of_ne {g : String} (h : Acts r g s r₁) (hne : g ≠ frame) (t : Session L) :
    Acts (r.setSession frame t) g s (r₁.setSession frame t) := by
  cases h with
  | isOpen found =>
      refine .isOpen ?_
      rw [frames_setSession, if_neg hne]
      exact found
  | opens absent fresh =>
      rw [openRoot_setSession r hne]
      refine .opens ?_ fresh
      rw [frames_setSession, if_neg hne]
      exact absent

omit [Level L] in
/-- A frame that is not open is not the one whose session is put in. -/
theorem absent_setSession {g : String} (found : r.frames[frame]? = some s)
    (absent : r.frames[g]? = none) (t : Session L) :
    g ≠ frame ∧ (r.setSession frame t).frames[g]? = none := by
  have hne : g ≠ frame := by
    rintro rfl
    rw [absent] at found
    cases found
  rw [frames_setSession, if_neg hne]
  exact ⟨hne, absent⟩

omit [Level L] in
theorem open_setSession {g : String} (hopen : r.frames[g]? = some s) (frame : String)
    (t : Session L) : ∃ s', (r.setSession frame t).frames[g]? = some s' := by
  rw [frames_setSession]
  split
  · exact ⟨t, rfl⟩
  · exact ⟨s, hopen⟩

/-- **A step of another frame does not look at the session of this one.** -/
theorem Does.setSession_of_ne (h : Does r step r₁) (found : r.frames[frame]? = some s)
    (hne : step.frame ≠ frame) (t : Session L) :
    Does (r.setSession frame t) step (r₁.setSession frame t) := by
  cases h with
  | action acts operands rule =>
      rw [Replay.setSession_of_ne _ hne]
      exact .action (acts.setSession_of_ne hne t) operands rule
  | call absent acts operands =>
      obtain ⟨hcallee, habsent⟩ := absent_setSession found absent t
      rw [openFrame_setSession _ hcallee]
      exact .call habsent (acts.setSession_of_ne hne t) operands
  | close acts balanced =>
      rw [closeFrame_setSession _ hne]
      exact .close (acts.setSession_of_ne hne t) balanced
  | @takeReturn g callee name returned _ _ _ _ _ closed acts rule =>
      have hclosed : (r.setSession frame t).returned[callee]? = some returned := closed
      rw [Replay.setSession_of_ne _ hne]
      exact .takeReturn hclosed (acts.setSession_of_ne hne t) rule

theorem Stops.setSession_of_ne (h : Stops r step fault r₁) (found : r.frames[frame]? = some s)
    (hne : step.frame ≠ frame) (t : Session L) :
    Stops (r.setSession frame t) step fault (r₁.setSession frame t) := by
  cases h with
  | calleeOpen hopen =>
      obtain ⟨other, hother⟩ := open_setSession hopen frame t
      exact .calleeOpen hother
  | notReturned absent => exact .notReturned absent
  | @closed g op ready absent opened =>
      refine .closed ?_ (absent_setSession found absent t).2 opened
      cases op with
      | call callee arguments => exact (absent_setSession found ready t).2
      | _ => exact ready
  | unread acts unread => exact .unread (acts.setSession_of_ne hne t) unread
  | action acts operands fault => exact .action (acts.setSession_of_ne hne t) operands fault
  | call absent acts unread =>
      exact .call (absent_setSession found absent t).2 (acts.setSession_of_ne hne t) unread
  | close acts unbalanced => exact .close (acts.setSession_of_ne hne t) unbalanced
  | @takeReturn g callee name returned _ _ _ closed acts fault =>
      have hclosed : (r.setSession frame t).returned[callee]? = some returned := closed
      exact .takeReturn hclosed (acts.setSession_of_ne hne t) fault

/-! ## §3  Steps of the frame -/

variable {scope : Scope L} {outer : List (Scope L)} {tags tags' : List Tag}
  {pc : ProgramCounter L} {op : TraceOp L} {v : Violation} {index : Nat}

omit [Level L] in
/-- Replay `r'` is `r` with one scope more in the session of `frame`. -/
def Buried (frame : String) (scope : Scope L) (outer : List (Scope L)) (tags : List Tag)
    (r r' : Replay L) : Prop :=
  ∃ s pc, r.frames[frame]? = some s ∧ s.pc.Buried scope outer tags pc ∧
    r' = r.setSession frame (s.withPc pc)

theorem Acts.eq_of_found (h : Acts r frame t r₁) (found : r.frames[frame]? = some s) :
    s = t ∧ r = r₁ := by
  cases h with
  | isOpen hopen =>
      rw [found] at hopen
      cases hopen
      exact ⟨rfl, rfl⟩
  | opens absent fresh =>
      rw [absent] at found
      cases found

omit [Level L] in
/-- The scope is in the session that a step leaves. -/
theorem buried_setSession (hpc : s.pc.Buried scope outer tags pc) (heap : Heap L) (t : Session L) :
    Buried frame scope outer tags { r.setSession frame s with heap := heap }
      { (r.setSession frame t).setSession frame (s.withPc pc) with heap := heap } := by
  refine ⟨s, pc, found_setSession r frame s, hpc, ?_⟩
  have htwice : ({ r.setSession frame s with heap := heap } : Replay L).setSession frame
      (s.withPc pc) = { (r.setSession frame s).setSession frame (s.withPc pc) with heap := heap } :=
    rfl
  rw [htwice, setSession_setSession, setSession_setSession]

/-- **A step of the frame that succeeds does so with the scope, too**, if its bracket fits the
scopes inside it and it does not close the frame. -/
theorem Does.buried (h : Does r ⟨frame, op⟩ r₁) (found : r.frames[frame]? = some s)
    (hpc : s.pc.Buried scope outer tags pc) (hclose : op ≠ .close)
    (hword : ((⟨frame, op⟩ : Step L).brackets frame).foldlM Bracket.next? tags = some tags') :
    ∃ r', Does (r.setSession frame (s.withPc pc)) ⟨frame, op⟩ r' ∧
      Buried frame scope outer tags' r₁ r' := by
  have hopen := found_setSession r frame (s.withPc pc)
  unfold Step.brackets at hword
  rw [if_pos rfl] at hword
  cases h with
  | @action _ action _ s' _ level reply heap' acts operands rule =>
      obtain ⟨rfl, rfl⟩ := acts.eq_of_found found
      obtain ⟨reply', pc', hrule, hpc'⟩ := Action.succeeds_buried rule hpc hword
      have hread := (s.joinOperands_withPc pc r.heap bottom action.operands).trans operands
      exact ⟨_, .action (.isOpen hopen) hread hrule, buried_setSession hpc' heap' _⟩
  | @call _ callee arguments _ _ levels absent acts operands =>
      obtain ⟨rfl, rfl⟩ := acts.eq_of_found found
      cases hword
      obtain ⟨hne, habsent⟩ := absent_setSession found absent (s.withPc pc)
      have hread := (s.argumentLevels_withPc pc r.heap arguments).trans operands
      -- the callee gets the level of the program counter, which is the same
      have hcall : (s.withPc pc).call callee levels = s.call callee levels := by
        have hlevel : (s.withPc pc).pc.level = s.pc.level := hpc.level_eq
        unfold Session.call
        rw [hlevel]
        rfl
      refine ⟨_, .call habsent (.isOpen hopen) hread, s, pc, ?_, hpc, ?_⟩
      · rw [frames_openFrame, if_neg hne.symm]
        exact found
      · rw [hcall, openFrame_setSession _ hne]
  | close acts balanced => exact absurd rfl hclose
  | @takeReturn _ callee name returned _ s' _ reply heap' closed acts rule =>
      obtain ⟨rfl, rfl⟩ := acts.eq_of_found found
      cases hword
      obtain ⟨hrule, hpc'⟩ := rule.buried_of_seesLevel trivial hpc
      have hclosed : (r.setSession frame (s.withPc pc)).returned[callee]? = some returned := closed
      exact ⟨_, .takeReturn hclosed (.isOpen hopen) hrule, buried_setSession hpc' heap' _⟩

/-- A step of the frame that fails does so with the scope, too. An illegal flow has no bracket. -/
theorem Stops.buried (h : Stops r ⟨frame, op⟩ fault r₁) (found : r.frames[frame]? = some s)
    (hpc : s.pc.Buried scope outer tags pc) (hclose : op ≠ .close)
    (hword : ((⟨frame, op⟩ : Step L).brackets frame).foldlM Bracket.next? tags = some tags') :
    r₁ = r ∧ Stops (r.setSession frame (s.withPc pc)) ⟨frame, op⟩ fault
        (r.setSession frame (s.withPc pc)) ∧
      ∀ index v, (fault index).violation? = some v → tags' = tags := by
  have hopen := found_setSession r frame (s.withPc pc)
  unfold Step.brackets at hword
  rw [if_pos rfl] at hword
  cases h with
  | calleeOpen hcallee =>
      obtain ⟨other, hother⟩ := open_setSession hcallee frame (s.withPc pc)
      cases hword
      exact ⟨rfl, .calleeOpen hother, fun _ _ _ => rfl⟩
  | notReturned absent =>
      cases hword
      exact ⟨rfl, .notReturned absent, fun _ _ _ => rfl⟩
  | closed ready absent opened =>
      rw [absent] at found
      cases found
  | @unread _ action _ _ cause acts unread =>
      obtain ⟨rfl, rfl⟩ := acts.eq_of_found found
      have hread := (s.joinOperands_withPc pc r.heap bottom action.operands).trans unread
      refine ⟨rfl, .unread (.isOpen hopen) hread, fun index v hviolation => ?_⟩
      obtain ⟨hcause, -⟩ := violation?_fault hviolation
      rw [Session.not_violation_of_joinOperands unread] at hcause
      cases hcause
  | @action _ action _ _ level cause acts operands fault =>
      obtain ⟨rfl, rfl⟩ := acts.eq_of_found found
      obtain ⟨hfails, htags⟩ := Action.fails_buried fault hpc hword
      have hread := (s.joinOperands_withPc pc r.heap bottom action.operands).trans operands
      exact ⟨rfl, .action (.isOpen hopen) hread hfails, fun _ _ _ => htags⟩
  | @call _ callee arguments _ _ cause absent acts unread =>
      obtain ⟨rfl, rfl⟩ := acts.eq_of_found found
      cases hword
      have hread := (s.argumentLevels_withPc pc r.heap arguments).trans unread
      refine ⟨rfl, .call ?_ (.isOpen hopen) hread, fun _ _ _ => rfl⟩
      exact (absent_setSession found absent _).2
  | close acts unbalanced => exact absurd rfl hclose
  | @takeReturn _ callee name returned _ _ cause closed acts fault =>
      obtain ⟨rfl, rfl⟩ := acts.eq_of_found found
      cases hword
      have hclosed : (r.setSession frame (s.withPc pc)).returned[callee]? = some returned := closed
      exact ⟨rfl, .takeReturn hclosed (.isOpen hopen) (fault.withPc trivial hpc.level_eq),
        fun _ _ _ => rfl⟩

/-! ## §4  Steps of any frame -/

omit [Level L] in
theorem tags_eq_of_ne {g : String} (hne : g ≠ frame) (tags : List Tag) (op : TraceOp L)
    (hword : ((⟨g, op⟩ : Step L).brackets frame).foldlM Bracket.next? tags = some tags') :
    tags' = tags := by
  unfold Step.brackets at hword
  rw [if_neg hne] at hword
  cases hword
  rfl

theorem Buried.does (h : Buried frame scope outer tags r r') (hdoes : Does r step r₁)
    (hclose : step.frame = frame → step.op ≠ .close)
    (hword : (step.brackets frame).foldlM Bracket.next? tags = some tags') :
    ∃ r₁', Does r' step r₁' ∧ Buried frame scope outer tags' r₁ r₁' := by
  obtain ⟨s, pc, found, hpc, rfl⟩ := h
  obtain ⟨g, op⟩ := step
  by_cases hsame : g = frame
  · subst hsame
    exact hdoes.buried found hpc (hclose rfl) hword
  · obtain rfl := tags_eq_of_ne hsame tags op hword
    refine ⟨_, hdoes.setSession_of_ne found hsame _, s, pc, ?_, hpc, rfl⟩
    rw [← (apply_of_does hdoes 0).2]
    exact (unaffected Words.start found 0 (Ne.symm hsame)).1

theorem Buried.stops (h : Buried frame scope outer tags r r') (hstops : Stops r step fault r₁)
    (hclose : step.frame = frame → step.op ≠ .close)
    (hword : (step.brackets frame).foldlM Bracket.next? tags = some tags') :
    ∃ r₁', Stops r' step fault r₁' ∧ Buried frame scope outer tags r₁ r₁' ∧
      ∀ index v, (fault index).violation? = some v → tags' = tags := by
  obtain ⟨s, pc, found, hpc, rfl⟩ := h
  obtain ⟨g, op⟩ := step
  by_cases hsame : g = frame
  · subst hsame
    obtain ⟨rfl, hstops', htags⟩ := hstops.buried found hpc (hclose rfl) hword
    exact ⟨_, hstops', ⟨s, pc, found, hpc, rfl⟩, htags⟩
  · obtain rfl := tags_eq_of_ne hsame tags op hword
    refine ⟨_, hstops.setSession_of_ne found hsame _, ⟨s, pc, ?_, hpc, rfl⟩, fun _ _ _ => rfl⟩
    rw [← (apply_of_stops hstops 0).2]
    exact (unaffected Words.start found 0 (Ne.symm hsame)).1

end Replay

end InfoFlow
