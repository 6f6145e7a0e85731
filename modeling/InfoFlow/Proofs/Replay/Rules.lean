import InfoFlow.Proofs.Session.Rules
import InfoFlow.Replay

/-!
# The rules of a replay

What a step of a trace can do to a replay, said once. `Acts` is how a step finds
the session of its frame, opening a root frame where there is none. `Does` has
one rule for each kind of step that succeeds, `Stops` one for each way in which a
step fails. A step does the one or the other (`does_or_stops`), and what comes of
it is determined (`apply_of_does`, `apply_of_stops`). Neither mentions the number
of the step, nor whether the replay goes on after an illegal flow. `after` runs
through the steps of a trace.
-/

namespace InfoFlow

open Level (bottom)

/-! ## §1  Actions -/

namespace Action

variable {L : Type} [Level L] {action : Action L} {s : Session L} {heap : Heap L}

/-- An action whose operands can be read does what the operation does. -/
theorem perform_of_operands {level : L}
    (operands : (s.operandLevel heap action.operands).result = .ok level) :
    (action.perform s heap).result = ((action.operation level).perform s heap).result ∧
      (action.perform s heap).state = ((action.operation level).perform s heap).state := by
  have hread : ((s.operandLevel heap action.operands).mapState fun _ => (s, heap)).result =
      .ok level := operands
  unfold perform Outcome.andThen
  rw [hread]
  exact ⟨rfl, rfl⟩

theorem perform_of_unread {e : Fault}
    (unread : (s.operandLevel heap action.operands).result = .error e) :
    (action.perform s heap).result = .error e ∧ (action.perform s heap).state = (s, heap) := by
  have hread : ((s.operandLevel heap action.operands).mapState fun _ => (s, heap)).result =
      .error e := unread
  unfold perform Outcome.andThen
  rw [hread]
  exact ⟨rfl, rfl⟩

end Action

namespace Replay

variable {L : Type}

/-! ## §2  Sessions of frames -/

theorem frames_openRoot (r : Replay L) (frame : String) (s : Session L) (f : String) :
    (r.openRoot frame s).frames[f]? = if f = frame then some s else r.frames[f]? := by
  simp only [openRoot, Std.ExtTreeMap.getElem?_insert, Std.compare_eq_iff_eq, @eq_comm _ f]

theorem frames_openFrame (r : Replay L) (frame : String) (s : Session L) (f : String) :
    (r.openFrame frame s).frames[f]? = if f = frame then some s else r.frames[f]? := by
  simp only [openFrame, Std.ExtTreeMap.getElem?_insert, Std.compare_eq_iff_eq, @eq_comm _ f]

theorem returned_openFrame (r : Replay L) (frame : String) (s : Session L) (f : String) :
    (r.openFrame frame s).returned[f]? = if f = frame then none else r.returned[f]? := by
  simp only [openFrame, Std.ExtTreeMap.getElem?_erase, Std.compare_eq_iff_eq, @eq_comm _ f]

theorem frames_setSession (r : Replay L) (frame : String) (s : Session L) (f : String) :
    (r.setSession frame s).frames[f]? = if f = frame then some s else r.frames[f]? := by
  simp only [setSession, Std.ExtTreeMap.getElem?_insert, Std.compare_eq_iff_eq, @eq_comm _ f]

theorem found_setSession (r : Replay L) (frame : String) (s : Session L) :
    (r.setSession frame s).frames[frame]? = some s := by
  rw [frames_setSession, if_pos rfl]

theorem frames_closeFrame (r : Replay L) (frame : String) (returned : Option L) (f : String) :
    (r.closeFrame frame returned).frames[f]? = if f = frame then none else r.frames[f]? := by
  simp only [closeFrame, Std.ExtTreeMap.getElem?_erase, Std.compare_eq_iff_eq, @eq_comm _ f]

theorem returned_closeFrame (r : Replay L) (frame : String) (returned : Option L) (f : String) :
    (r.closeFrame frame returned).returned[f]? =
      if f = frame then some returned else r.returned[f]? := by
  simp only [closeFrame, Std.ExtTreeMap.getElem?_insert, Std.compare_eq_iff_eq, @eq_comm _ f]

theorem contains_frames (r : Replay L) (f : String) :
    r.frames.contains f = r.frames[f]?.isSome :=
  Std.ExtTreeMap.contains_eq_isSome_getElem?

theorem setSession_self {r : Replay L} {frame : String} {s : Session L}
    (found : r.frames[frame]? = some s) : r.setSession frame s = r := by
  unfold setSession
  rw [FiniteMap.insert_of_getElem? found]

variable [Level L]

/-- The session that a step of this frame acts on, unless the frame has closed. -/
def current (r : Replay L) (frame : String) : Session L :=
  r.frames[frame]?.getD ((Session.root r.policy).named frame)

/-- `Acts r frame s r₁`: a step of `frame` acts on session `s`, and has left
`r₁` when it gets hold of it. -/
inductive Acts (r : Replay L) (frame : String) : Session L → Replay L → Prop
  | isOpen {s : Session L} (found : r.frames[frame]? = some s) : Acts r frame s r
  | opens (absent : r.frames[frame]? = none) (fresh : r.opened.contains frame = false) :
      Acts r frame ((Session.root r.policy).named frame)
        (r.openRoot frame ((Session.root r.policy).named frame))

/-- A step gets hold of the session of its frame, unless the frame has closed. -/
theorem acts_or_closed (r : Replay L) (frame : String) :
    (∃ s r₁, Acts r frame s r₁) ∨ r.frames[frame]? = none ∧ r.opened.contains frame = true := by
  cases hfound : r.frames[frame]? with
  | some s => exact Or.inl ⟨s, r, .isOpen hfound⟩
  | none =>
      cases hopened : r.opened.contains frame with
      | true => exact Or.inr ⟨rfl, rfl⟩
      | false => exact Or.inl ⟨_, _, .opens hfound hopened⟩

section Acts

variable {r r₁ : Replay L} {frame : String} {s : Session L}

theorem Acts.current_eq (h : Acts r frame s r₁) : r.current frame = s := by
  unfold current
  cases h with
  | isOpen found => rw [found, Option.getD_some]
  | opens absent fresh => rw [absent, Option.getD_none]

theorem Acts.found (h : Acts r frame s r₁) : r₁.frames[frame]? = some s := by
  cases h with
  | isOpen found => exact found
  | opens absent fresh => rw [frames_openRoot, if_pos rfl]

theorem Acts.ensureOpen (h : Acts r frame s r₁) (index : Nat) :
    (r.ensureOpen index frame).result = .ok () ∧ (r.ensureOpen index frame).state = r₁ := by
  unfold Replay.ensureOpen
  rw [contains_frames]
  cases h with
  | isOpen found =>
      rw [found]
      exact ⟨rfl, rfl⟩
  | opens absent fresh =>
      rw [absent, fresh]
      exact ⟨rfl, rfl⟩

theorem Acts.session (h : Acts r frame s r₁) (index : Nat) :
    (r.session index frame).result = .ok s ∧ (r.session index frame).state = r₁ := by
  obtain ⟨hresult, hstate⟩ := h.ensureOpen index
  simp only [Replay.session, Outcome.andThen, hresult, hstate, h.found]
  exact ⟨rfl, rfl⟩

theorem Acts.heap_eq (h : Acts r frame s r₁) : r₁.heap = r.heap := by
  cases h with
  | isOpen found => rfl
  | opens absent fresh => rfl

theorem Acts.frames_of_some (h : Acts r frame s r₁) {f : String} {other : Session L}
    (hf : r.frames[f]? = some other) : r₁.frames[f]? = some other := by
  cases h with
  | isOpen found => exact hf
  | opens absent fresh =>
      have hne : f ≠ frame := by
        rintro rfl
        rw [absent] at hf
        cases hf
      rw [frames_openRoot, if_neg hne, hf]

theorem Acts.returned_eq (h : Acts r frame s r₁) : r₁.returned = r.returned := by
  cases h with
  | isOpen found => rfl
  | opens absent fresh => rfl

theorem Acts.returned_of_some (h : Acts r frame s r₁) {f : String} {returned : Option L}
    (hf : r₁.returned[f]? = some returned) : r.returned[f]? = some returned := by
  rw [← h.returned_eq]
  exact hf

theorem session_of_closed (absent : r.frames[frame]? = none)
    (opened : r.opened.contains frame = true) (index : Nat) :
    (r.session index frame).result = .error (.alreadyClosed index frame) ∧
      (r.session index frame).state = r := by
  have hclosed : r.ensureOpen index frame = .fail r (.alreadyClosed index frame) := by
    unfold Replay.ensureOpen
    rw [contains_frames, absent, opened]
    rfl
  unfold Replay.session
  rw [hclosed]
  exact ⟨rfl, rfl⟩

end Acts

/-! ## §3  The rules -/

/-- `Does r step r'`: on replay `r`, the step succeeds and leaves `r'`. -/
inductive Does (r : Replay L) : Step L → Replay L → Prop
  | action {frame : String} {action : Action L} {s s' : Session L} {r₁ : Replay L} {level : L}
      {reply : Reply L} {heap' : Heap L} (acts : Acts r frame s r₁)
      (operands : (s.operandLevel r₁.heap action.operands).result = .ok level)
      (rule : (action.operation level).Succeeds s r₁.heap reply s' heap') :
      Does r ⟨frame, .action action⟩ { r₁.setSession frame s' with heap := heap' }
  | call {frame callee : String} {arguments : List (Operand L)} {s : Session L}
      {r₁ : Replay L} {levels : List L} (absent : r.frames[callee]? = none)
      (acts : Acts r frame s r₁)
      (operands : (s.argumentLevels r₁.heap arguments).result = .ok levels) :
      Does r ⟨frame, .call callee arguments⟩ (r₁.openFrame callee (s.call callee levels))
  | close {frame : String} {s : Session L} {r₁ : Replay L} (acts : Acts r frame s r₁)
      (balanced : s.checkClose = .ok ()) :
      Does r ⟨frame, .close⟩ (r₁.closeFrame frame s.returned)
  | takeReturn {frame callee name : String} {returned : Option L} {s s' : Session L}
      {r₁ : Replay L} {reply : Reply L} {heap' : Heap L}
      (closed : r.returned[callee]? = some returned) (acts : Acts r frame s r₁)
      (rule : (Operation.write name (returned.getD bottom)).Succeeds s r₁.heap reply s' heap') :
      Does r ⟨frame, .takeReturn callee name⟩ { r₁.setSession frame s' with heap := heap' }

/-- The step gets as far as asking for the session of its frame. -/
def Ready (r : Replay L) : TraceOp L → Prop
  | .call callee _ => r.frames[callee]? = none
  | .takeReturn callee _ => r.returned[callee]? ≠ none
  | _ => True

/-- `Stops r step fault r'`: on replay `r`, the step fails with `fault`, which
carries the number of the step, and leaves `r'`. -/
inductive Stops (r : Replay L) : Step L → (Nat → ReplayFault) → Replay L → Prop
  | calleeOpen {frame callee : String} {arguments : List (Operand L)} {s : Session L}
      (found : r.frames[callee]? = some s) :
      Stops r ⟨frame, .call callee arguments⟩ (.alreadyOpen · callee) r
  | notReturned {frame callee name : String} (absent : r.returned[callee]? = none) :
      Stops r ⟨frame, .takeReturn callee name⟩ (.notReturned · callee) r
  | closed {frame : String} {op : TraceOp L} (ready : r.Ready op)
      (absent : r.frames[frame]? = none) (opened : r.opened.contains frame = true) :
      Stops r ⟨frame, op⟩ (.alreadyClosed · frame) r
  | unread {frame : String} {action : Action L} {s : Session L} {r₁ : Replay L} {cause : Fault}
      (acts : Acts r frame s r₁)
      (unread : (s.operandLevel r₁.heap action.operands).result = .error cause) :
      Stops r ⟨frame, .action action⟩ (.fault · frame cause) r₁
  | action {frame : String} {action : Action L} {s : Session L} {r₁ : Replay L} {level : L}
      {cause : Fault} (acts : Acts r frame s r₁)
      (operands : (s.operandLevel r₁.heap action.operands).result = .ok level)
      (fault : (action.operation level).Fails s r₁.heap cause) :
      Stops r ⟨frame, .action action⟩ (.fault · frame cause) r₁
  | call {frame callee : String} {arguments : List (Operand L)} {s : Session L}
      {r₁ : Replay L} {cause : Fault} (absent : r.frames[callee]? = none)
      (acts : Acts r frame s r₁)
      (unread : (s.argumentLevels r₁.heap arguments).result = .error cause) :
      Stops r ⟨frame, .call callee arguments⟩ (.fault · frame cause) r₁
  | close {frame : String} {s : Session L} {r₁ : Replay L} {cause : Fault}
      (acts : Acts r frame s r₁) (unbalanced : s.checkClose = .error cause) :
      Stops r ⟨frame, .close⟩ (.fault · frame cause) r₁
  | takeReturn {frame callee name : String} {returned : Option L} {s : Session L}
      {r₁ : Replay L} {cause : Fault} (closed : r.returned[callee]? = some returned)
      (acts : Acts r frame s r₁)
      (fault : (Operation.write name (returned.getD bottom)).Fails s r₁.heap cause) :
      Stops r ⟨frame, .takeReturn callee name⟩ (.fault · frame cause) r₁

/-- **Every step follows its rule or stops.** -/
theorem does_or_stops (r : Replay L) (step : Step L) :
    (∃ r', Does r step r') ∨ ∃ fault r', Stops r step fault r' := by
  obtain ⟨frame, op⟩ := step
  by_cases hready : r.Ready op
  · rcases r.acts_or_closed frame with ⟨s, r₁, hacts⟩ | ⟨habsent, hopened⟩
    · cases op with
      | action action =>
          cases hlevel : (s.operandLevel r₁.heap action.operands).result with
          | error cause => exact Or.inr ⟨_, _, .unread hacts hlevel⟩
          | ok level =>
              rcases (action.operation level).succeeds_or_fails s r₁.heap with
                ⟨reply, s', heap', hrule⟩ | ⟨cause, hfault⟩
              · exact Or.inl ⟨_, .action hacts hlevel hrule⟩
              · exact Or.inr ⟨_, _, .action hacts hlevel hfault⟩
      | call callee arguments =>
          cases hlevels : (s.argumentLevels r₁.heap arguments).result with
          | error cause => exact Or.inr ⟨_, _, .call hready hacts hlevels⟩
          | ok levels => exact Or.inl ⟨_, .call hready hacts hlevels⟩
      | close =>
          cases hclose : s.checkClose with
          | error cause => exact Or.inr ⟨_, _, .close hacts hclose⟩
          | ok done => exact Or.inl ⟨_, .close hacts hclose⟩
      | takeReturn callee name =>
          obtain ⟨returned, hclosed⟩ := Option.ne_none_iff_exists'.1 hready
          rcases (Operation.write name (returned.getD bottom)).succeeds_or_fails s r₁.heap with
            ⟨reply, s', heap', hrule⟩ | ⟨cause, hfault⟩
          · exact Or.inl ⟨_, .takeReturn hclosed hacts hrule⟩
          · exact Or.inr ⟨_, _, .takeReturn hclosed hacts hfault⟩
    · exact Or.inr ⟨_, _, .closed hready habsent hopened⟩
  · cases op with
    | call callee arguments =>
        obtain ⟨s, hfound⟩ := Option.ne_none_iff_exists'.1 hready
        exact Or.inr ⟨_, _, .calleeOpen hfound⟩
    | takeReturn callee name =>
        exact Or.inr ⟨_, _, .notReturned (Classical.not_not.1 hready)⟩
    | _ => exact absurd trivial hready

/-! ## §4  What comes of a step -/

variable {r r₁ r' : Replay L} {frame : String} {s : Session L} {step : Step L}

theorem onSession_of_acts (acts : Acts r frame s r₁) (index : Nat) {α : Type}
    (act : Session L → Heap L → Outcome Fault (Session L × Heap L) α) :
    (r.onSession index frame act).result =
        (act s r₁.heap).result.mapError (.fault index frame) ∧
      (r.onSession index frame act).state =
        { r₁.setSession frame (act s r₁.heap).state.1 with heap := (act s r₁.heap).state.2 } := by
  obtain ⟨hresult, hstate⟩ := acts.session index
  unfold onSession Outcome.andThen
  rw [hresult, hstate]
  exact ⟨rfl, rfl⟩

omit [Level L] in
theorem contains_frames_of_none {f : String} (h : r.frames[f]? = none) :
    r.frames.contains f = false := by
  rw [contains_frames, h]
  rfl

omit [Level L] in
/-- A session that may close is taken out and ended. -/
theorem finish_of_balanced (found : r.frames[frame]? = some s) (balanced : s.checkClose = .ok ())
    (index : Nat) :
    (r.finish index frame).result = .ok () ∧
      (r.finish index frame).state = r.closeFrame frame s.returned := by
  simp only [finish, found, Session.close, balanced]
  exact ⟨rfl, rfl⟩

/-- Whether a frame may close is asked before its session is taken out. -/
theorem close_of_acts (acts : Acts r frame s r₁) (index : Nat) :
    (r.close index frame).result =
        (s.checkClose.mapError (.fault index frame)).bind
          (fun _ => (r₁.finish index frame).result) ∧
      (r.close index frame).state =
        match s.checkClose with
        | .ok () => (r₁.finish index frame).state
        | .error _ => r₁ := by
  obtain ⟨hresult, hstate⟩ := acts.session index
  simp only [Replay.close, Outcome.andThen, hresult, hstate]
  cases s.checkClose <;> exact ⟨rfl, rfl⟩

/-- **A step that meets its rule succeeds and leaves what the rule says.** -/
theorem apply_of_does (h : Does r step r') (index : Nat) :
    (r.apply index step).result = .ok () ∧ (r.apply index step).state = r' := by
  cases h with
  | @action frame action s s' r₁ level reply heap' acts operands rule =>
      obtain ⟨hresult, hstate⟩ := onSession_of_acts acts index action.perform
      obtain ⟨hperform, hafter⟩ := Action.perform_of_operands operands
      obtain ⟨hok, hleft⟩ := Operation.perform_of_succeeds rule
      rw [hperform, hok] at hresult
      rw [hafter, hleft] at hstate
      exact ⟨Outcome.result_map_eq_ok.2 ⟨reply, hresult, rfl⟩, hstate⟩
  | @call frame callee arguments s r₁ levels absent acts operands =>
      obtain ⟨hsession, hopen⟩ := acts.session index
      have hlevels : ((s.argumentLevels r₁.heap arguments).mapError
          (ReplayFault.fault index frame)).result = .ok levels :=
        Outcome.result_mapError_eq_ok.2 operands
      simp only [apply, Replay.call, contains_frames_of_none absent, Bool.false_eq_true, if_false,
        Outcome.andThen, hsession, hopen, Outcome.result_mapState, hlevels]
      exact ⟨rfl, rfl⟩
  | @close frame s r₁ acts balanced =>
      obtain ⟨hresult, hstate⟩ := close_of_acts acts index
      obtain ⟨hok, hleft⟩ := finish_of_balanced acts.found balanced index
      rw [balanced] at hresult hstate
      exact ⟨hresult.trans hok, hstate.trans hleft⟩
  | @takeReturn frame callee name returned s s' r₁ reply heap' closed acts rule =>
      obtain ⟨hresult, hstate⟩ := onSession_of_acts acts index
        (Operation.write name (returned.getD bottom)).perform
      obtain ⟨hok, hleft⟩ := Operation.perform_of_succeeds rule
      rw [hok] at hresult
      rw [hleft] at hstate
      simp only [apply, Replay.takeReturn, closed]
      exact ⟨Outcome.result_map_eq_ok.2 ⟨reply, hresult, rfl⟩, hstate⟩

/-- A frame that has closed is refused by every step that asks for its session. -/
theorem apply_of_closed {op : TraceOp L} (ready : r.Ready op) (absent : r.frames[frame]? = none)
    (opened : r.opened.contains frame = true) (index : Nat) :
    (r.apply index ⟨frame, op⟩).result = .error (.alreadyClosed index frame) ∧
      (r.apply index ⟨frame, op⟩).state = r := by
  obtain ⟨hsession, hsame⟩ := session_of_closed absent opened index
  cases op with
  | action action =>
      simp only [apply, onSession, Outcome.andThen, hsession, hsame]
      exact ⟨rfl, rfl⟩
  | call callee arguments =>
      simp only [apply, Replay.call, contains_frames_of_none ready, Bool.false_eq_true, if_false,
        Outcome.andThen, hsession, hsame, and_self]
  | close => simp only [apply, Replay.close, Outcome.andThen, hsession, hsame, and_self]
  | takeReturn callee name =>
      obtain ⟨returned, hreturned⟩ := Option.ne_none_iff_exists'.1 ready
      simp only [apply, Replay.takeReturn, hreturned, onSession, Outcome.andThen, hsession, hsame]
      exact ⟨rfl, rfl⟩

/-- **A step that stops fails as the rule says.** -/
theorem apply_of_stops {fault : Nat → ReplayFault} (h : Stops r step fault r') (index : Nat) :
    (r.apply index step).result = .error (fault index) ∧ (r.apply index step).state = r' := by
  cases h with
  | @calleeOpen frame callee arguments s found =>
      have hopen : r.frames.contains callee = true := by
        rw [Std.ExtTreeMap.contains_eq_isSome_getElem?, found]
        rfl
      have hcall : r.call index frame callee arguments = .fail r (.alreadyOpen index callee) :=
        if_pos hopen
      simp only [apply, hcall]
      exact ⟨rfl, rfl⟩
  | @notReturned frame callee name absent =>
      have htake : r.takeReturn index frame callee name = .fail r (.notReturned index callee) := by
        simp only [Replay.takeReturn, absent]
      simp only [apply, htake]
      exact ⟨rfl, rfl⟩
  | closed ready absent opened => exact apply_of_closed ready absent opened index
  | @unread frame action s _ cause acts unread =>
      obtain ⟨hresult, hstate⟩ := onSession_of_acts acts index action.perform
      obtain ⟨hperform, hafter⟩ := Action.perform_of_unread unread
      rw [hperform] at hresult
      rw [hafter] at hstate
      refine ⟨Outcome.result_map_eq_error.2 hresult, hstate.trans ?_⟩
      exact setSession_self acts.found
  | @action frame action s _ level cause acts operands fault =>
      obtain ⟨hresult, hstate⟩ := onSession_of_acts acts index action.perform
      obtain ⟨hperform, hafter⟩ := Action.perform_of_operands operands
      obtain ⟨herror, hleft⟩ := Operation.perform_of_fails fault
      rw [hperform, herror] at hresult
      rw [hafter, hleft] at hstate
      refine ⟨Outcome.result_map_eq_error.2 hresult, hstate.trans ?_⟩
      exact setSession_self acts.found
  | @call frame callee arguments s _ cause absent acts unread =>
      obtain ⟨hsession, hopen⟩ := acts.session index
      have hlevels : ((s.argumentLevels r'.heap arguments).mapError
          (ReplayFault.fault index frame)).result = .error (.fault index frame cause) :=
        Outcome.result_mapError_eq_error.2 ⟨cause, unread, rfl⟩
      simp only [apply, Replay.call, contains_frames_of_none absent, Bool.false_eq_true, if_false,
        Outcome.andThen, hsession, hopen, Outcome.result_mapState, hlevels]
      exact ⟨rfl, rfl⟩
  | close acts unbalanced =>
      obtain ⟨hresult, hstate⟩ := close_of_acts acts index
      rw [unbalanced] at hresult hstate
      exact ⟨hresult, hstate⟩
  | @takeReturn frame callee name returned s _ cause closed acts fault =>
      obtain ⟨hresult, hstate⟩ := onSession_of_acts acts index
        (Operation.write name (returned.getD bottom)).perform
      obtain ⟨herror, hleft⟩ := Operation.perform_of_fails fault
      rw [herror] at hresult
      rw [hleft] at hstate
      simp only [apply, Replay.takeReturn, closed]
      refine ⟨Outcome.result_map_eq_error.2 hresult, hstate.trans ?_⟩
      exact setSession_self acts.found

/-- A step that succeeds follows its rule. -/
theorem does_of_ok {index : Nat} (h : (r.apply index step).result = .ok ()) :
    Does r step (r.apply index step).state := by
  rcases r.does_or_stops step with ⟨r', hdoes⟩ | ⟨fault, r', hstops⟩
  · rw [(apply_of_does hdoes index).2]
    exact hdoes
  · rw [(apply_of_stops hstops index).1] at h
    cases h

/-- A step that fails has stopped. -/
theorem stops_of_error {index : Nat} {e : ReplayFault} (h : (r.apply index step).result = .error e) :
    ∃ fault, fault index = e ∧ Stops r step fault (r.apply index step).state := by
  rcases r.does_or_stops step with ⟨r', hdoes⟩ | ⟨fault, r', hstops⟩
  · rw [(apply_of_does hdoes index).1] at h
    cases h
  · obtain ⟨hresult, hstate⟩ := apply_of_stops hstops index
    rw [h] at hresult
    cases hresult
    rw [hstate]
    exact ⟨fault, rfl, hstops⟩

/-- **A step that fails changes nothing**, but for opening a root frame. -/
theorem Stops.state_cases {fault : Nat → ReplayFault} (h : Stops r step fault r') :
    r' = r ∨ ∃ s, Acts r step.frame s r' := by
  cases h with
  | calleeOpen found => exact Or.inl rfl
  | notReturned absent => exact Or.inl rfl
  | closed ready absent opened => exact Or.inl rfl
  | unread acts unread => exact Or.inr ⟨_, acts⟩
  | action acts operands fault => exact Or.inr ⟨_, acts⟩
  | call absent acts unread => exact Or.inr ⟨_, acts⟩
  | close acts unbalanced => exact Or.inr ⟨_, acts⟩
  | takeReturn closed acts fault => exact Or.inr ⟨_, acts⟩

/-- A step leaves what its rule says, or at most a root frame more than it met. -/
theorem apply_cases (r : Replay L) (index : Nat) (step : Step L) :
    ((r.apply index step).result = .ok () ∧ Does r step (r.apply index step).state) ∨
      ((r.apply index step).result.isOk = false ∧
        ((r.apply index step).state = r ∨ ∃ s, Acts r step.frame s (r.apply index step).state)) := by
  cases h : (r.apply index step).result with
  | ok done => exact Or.inl ⟨rfl, does_of_ok h⟩
  | error e =>
      obtain ⟨fault, -, hstops⟩ := stops_of_error h
      exact Or.inr ⟨rfl, hstops.state_cases⟩

/-! ## §5  Frames that were opened -/

/-- A frame that is open or has returned was opened in this run. -/
structure KnowsFrames (r : Replay L) : Prop where
  active : ∀ f s, r.frames[f]? = some s → r.opened.contains f = true
  returned : ∀ f returned, r.returned[f]? = some returned → r.opened.contains f = true

omit [Level L] in
theorem knowsFrames_new (policy : Policy) (keepGoing : Bool) :
    (new policy keepGoing : Replay L).KnowsFrames where
  active := by
    intro f s hf
    exact absurd (hf.symm.trans Std.ExtTreeMap.getElem?_empty) (Option.some_ne_none s)
  returned := by
    intro f returned hf
    exact absurd (hf.symm.trans Std.ExtTreeMap.getElem?_empty) (Option.some_ne_none returned)

omit [Level L] in
theorem contains_insert_opened {f : String} (frame : String)
    (h : f = frame ∨ r.opened.contains f = true) : (r.opened.insert frame).contains f = true := by
  rcases h with rfl | h
  · exact Std.ExtTreeSet.contains_insert_self
  · rw [Std.ExtTreeSet.contains_insert, h, Bool.or_true]

omit [Level L] in
theorem KnowsFrames.openRoot (h : r.KnowsFrames) (frame : String) (s : Session L) :
    (r.openRoot frame s).KnowsFrames := by
  constructor
  · intro f other hf
    rw [frames_openRoot] at hf
    by_cases hsame : f = frame
    · exact contains_insert_opened frame (Or.inl hsame)
    · rw [if_neg hsame] at hf
      exact contains_insert_opened frame (Or.inr (h.active f other hf))
  · intro f returned hf
    exact contains_insert_opened frame (Or.inr (h.returned f returned hf))

omit [Level L] in
theorem KnowsFrames.openFrame (h : r.KnowsFrames) (frame : String) (s : Session L) :
    (r.openFrame frame s).KnowsFrames := by
  constructor
  · intro f other hf
    rw [frames_openFrame] at hf
    by_cases hsame : f = frame
    · exact contains_insert_opened frame (Or.inl hsame)
    · rw [if_neg hsame] at hf
      exact contains_insert_opened frame (Or.inr (h.active f other hf))
  · intro f returned hf
    rw [returned_openFrame] at hf
    by_cases hsame : f = frame
    · exact contains_insert_opened frame (Or.inl hsame)
    · rw [if_neg hsame] at hf
      exact contains_insert_opened frame (Or.inr (h.returned f returned hf))

theorem KnowsFrames.acts (h : r.KnowsFrames) (hacts : Acts r frame s r₁) : r₁.KnowsFrames := by
  cases hacts with
  | isOpen found => exact h
  | opens absent fresh => exact h.openRoot frame _

omit [Level L] in
theorem KnowsFrames.setSession (h : r.KnowsFrames) (found : r.frames[frame]? = some s)
    (s' : Session L) (heap : Heap L) :
    ({ r.setSession frame s' with heap := heap } : Replay L).KnowsFrames := by
  constructor
  · intro f other hf
    have hf : (r.setSession frame s').frames[f]? = some other := hf
    rw [frames_setSession] at hf
    by_cases hsame : f = frame
    · subst hsame
      exact h.active f s found
    · rw [if_neg hsame] at hf
      exact h.active f other hf
  · exact h.returned

omit [Level L] in
theorem KnowsFrames.closeFrame (h : r.KnowsFrames) (found : r.frames[frame]? = some s)
    (returned : Option L) : (r.closeFrame frame returned).KnowsFrames := by
  constructor
  · intro f other hf
    rw [frames_closeFrame] at hf
    split at hf
    · cases hf
    · exact h.active f other hf
  · intro f kept hf
    rw [returned_closeFrame] at hf
    by_cases hsame : f = frame
    · subst hsame
      exact h.active f s found
    · rw [if_neg hsame] at hf
      exact h.returned f kept hf

theorem KnowsFrames.does (h : r.KnowsFrames) (hdoes : Does r step r') : r'.KnowsFrames := by
  cases hdoes with
  | action acts operands rule => exact (h.acts acts).setSession acts.found _ _
  | call absent acts operands => exact (h.acts acts).openFrame _ _
  | close acts balanced => exact (h.acts acts).closeFrame acts.found _
  | takeReturn closed acts rule => exact (h.acts acts).setSession acts.found _ _

theorem KnowsFrames.apply (h : r.KnowsFrames) (index : Nat) (step : Step L) :
    (r.apply index step).state.KnowsFrames := by
  rcases r.apply_cases index step with ⟨-, hdoes⟩ | ⟨-, hsame | ⟨s, hacts⟩⟩
  · exact h.does hdoes
  · rw [hsame]
    exact h
  · exact h.acts hacts

/-! ## §6  Whole traces -/

/-- The replay after these steps, the first of which has number `index`. Steps
that fail leave what they leave. -/
def after (r : Replay L) (index : Nat) : List (Step L) → Replay L
  | [] => r
  | step :: steps => (r.apply index step).state.after (index + 1) steps

theorem after_append (r : Replay L) (index : Nat) (done rest : List (Step L)) :
    r.after index (done ++ rest) = (r.after index done).after (index + done.length) rest := by
  induction done generalizing r index with
  | nil => rfl
  | cons step done ih =>
      show (r.apply index step).state.after (index + 1) (done ++ rest) = _
      rw [ih, List.length_cons, Nat.add_right_comm, Nat.add_assoc]
      rfl

theorem KnowsFrames.after {r : Replay L} (h : r.KnowsFrames) (index : Nat)
    (steps : List (Step L)) : (r.after index steps).KnowsFrames := by
  induction steps generalizing r index with
  | nil => exact h
  | cons step steps ih => exact ih (h.apply index step) (index + 1)

/-- Every one of these steps succeeds. -/
def Clean (r : Replay L) (index : Nat) : List (Step L) → Prop
  | [] => True
  | step :: steps =>
      (r.apply index step).result = .ok () ∧ (r.apply index step).state.Clean (index + 1) steps

theorem clean_append {r : Replay L} {index : Nat} {done rest : List (Step L)} :
    r.Clean index (done ++ rest) ↔
      r.Clean index done ∧ (r.after index done).Clean (index + done.length) rest := by
  induction done generalizing r index with
  | nil =>
      constructor
      · intro h
        exact ⟨trivial, h⟩
      · exact fun h => h.2
  | cons step done ih =>
      have hindex : index + (step :: done).length = index + 1 + done.length := by
        rw [List.length_cons]
        omega
      rw [hindex, List.cons_append]
      show _ ∧ (r.apply index step).state.Clean (index + 1) (done ++ rest) ↔ (_ ∧ _) ∧ _
      rw [ih, and_assoc]
      rfl

end Replay

end InfoFlow
