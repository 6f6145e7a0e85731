import Mathlib.Logic.Function.Basic
import InfoFlow.Level.Chain
import InfoFlow.Proofs.Replay.LegalPart

/-!
# The life of a frame

A frame opens when it is called, or by the first step of its own that is carried out.
It closes with what it has returned, and may be called again. `Lives` follows this by
the steps of a run, what came of them, and what a session that closes has recorded. The
tables of the replay say the same (`Accords`): the open frames are those whose latest
event is an opening, the recorded returns are those of the latest closings, and the
frames that the run has seen are these and no others. So it can be read off the life of
a frame which steps are refused because a frame is open, closed, or has not returned,
and what a frame that takes a return level is given (`Reached.lifecycle`).
-/

namespace InfoFlow

open Function (update)
open Level (bottom)

variable {L : Type}

/-! ## §1  Lives -/

/-- What can happen in the life of a frame. -/
inductive LifeEvent (L : Type) where
  /-- It is opened: as a root frame, or because it is called. -/
  | opens
  /-- It closes, having returned this, if anything. -/
  | closes (returned : Option L)
deriving DecidableEq, Repr

/-- For every frame, the latest event in its life, if there was one. -/
abbrev Lives (L : Type) := String → Option (LifeEvent L)

/-- The step was turned away because a frame is open, has closed, or has not returned. It
has not got hold of the session of its own frame. -/
def TurnedAway : Except ReplayFault Unit → Bool
  | .error (.alreadyOpen ..) => true
  | .error (.notReturned ..) => true
  | .error (.alreadyClosed ..) => true
  | _ => false

namespace Lives

variable [Level L]

/-- No frame was opened yet. -/
def start : Lives L := fun _ => none

/-- The frame is opened, if nothing has happened to it before. -/
def enter (lives : Lives L) (frame : String) : Lives L :=
  update lives frame ((lives frame).or (some .opens))

/-- What a step makes of the lives of the frames. Unless it is turned away, it opens
its own frame if nothing has happened to that before. A call opens the callee, and a
close ends with what the session has recorded. -/
def next (lives : Lives L) (r : Replay L) (index : Nat) (step : Step L) : Lives L :=
  let result := (r.apply index step).result
  let entered := if TurnedAway result then lives else lives.enter step.frame
  match step.op, result with
  | .call callee _, .ok () => update entered callee (some .opens)
  | .close, .ok () =>
      update entered step.frame (some (.closes (r.current step.frame).returned))
  | _, _ => entered

/-- The lives of the frames after these steps, the first of which has number `index`. -/
def after (lives : Lives L) (r : Replay L) (index : Nat) : List (Step L) → Lives L
  | [] => lives
  | step :: steps => (lives.next r index step).after (r.apply index step).state (index + 1) steps

/-- The step is not turned away on account of the frame that it calls or takes a
return level from. -/
def Admits (lives : Lives L) : TraceOp L → Prop
  | .call callee _ => lives callee ≠ some .opens
  | .takeReturn callee _ => ∃ returned, lives callee = some (.closes returned)
  | _ => True

end Lives

/-! ## §2  The tables of a replay -/

/-- The tables of a replay say the same as the lives of the frames. -/
structure Accords (r : Replay L) (lives : Lives L) : Prop where
  active : ∀ f, (∃ s, r.frames[f]? = some s) ↔ lives f = some .opens
  returned : ∀ f returned, r.returned[f]? = some returned ↔ lives f = some (.closes returned)
  opened : ∀ f, r.opened.contains f = true ↔ lives f ≠ none

namespace Accords

variable {r r₁ r' : Replay L} {lives : Lives L} {frame : String} {s : Session L}

theorem active_openRoot (h : Accords r lives) (frame : String) (s : Session L) (f : String) :
    (∃ other, (r.openRoot frame s).frames[f]? = some other) ↔
      update lives frame (some .opens) f = some .opens := by
  rw [Replay.frames_openRoot]
  by_cases hf : f = frame
  · subst hf
    simp
  · rw [if_neg hf, Function.update_of_ne hf]
    exact h.active f

/-- A frame that is opened has been seen from then on. -/
theorem opened_openRoot (h : Accords r lives) (frame : String) (s : Session L) (f : String) :
    (r.openRoot frame s).opened.contains f = true ↔
      update lives frame (some .opens) f ≠ none := by
  show (r.opened.insert frame).contains f = true ↔ _
  rw [Std.ExtTreeSet.contains_insert]
  by_cases hf : f = frame
  · subst hf
    simp
  · rw [Function.update_of_ne hf, ← h.opened f]
    simp [Ne.symm hf]

/-- A frame to which nothing has happened has returned nothing. -/
theorem openRoot (h : Accords r lives) (fresh : lives frame = none) (s : Session L) :
    Accords (r.openRoot frame s) (update lives frame (some .opens)) := by
  constructor
  · exact h.active_openRoot frame s
  · intro f returned
    show r.returned[f]? = some returned ↔ _
    by_cases hf : f = frame
    · subst hf
      rw [h.returned f returned, fresh]
      simp
    · rw [Function.update_of_ne hf]
      exact h.returned f returned
  · exact h.opened_openRoot frame s

theorem openFrame (h : Accords r lives) (frame : String) (s : Session L) :
    Accords (r.openFrame frame s) (update lives frame (some .opens)) := by
  constructor
  · exact h.active_openRoot frame s
  · intro f returned
    rw [Replay.returned_openFrame]
    by_cases hf : f = frame
    · subst hf
      simp
    · rw [if_neg hf, Function.update_of_ne hf]
      exact h.returned f returned
  · exact h.opened_openRoot frame s

theorem setSession (h : Accords r lives) (found : r.frames[frame]? = some s) (s' : Session L)
    (heap : Heap L) : Accords { r.setSession frame s' with heap := heap } lives := by
  refine ⟨?_, h.returned, h.opened⟩
  intro f
  show (∃ s, (r.setSession frame s').frames[f]? = some s) ↔ _
  rw [Replay.frames_setSession, ← h.active f]
  by_cases hf : f = frame
  · subst hf
    simp [found]
  · rw [if_neg hf]

theorem closeFrame (h : Accords r lives) (found : r.frames[frame]? = some s)
    (returned : Option L) :
    Accords (r.closeFrame frame returned) (update lives frame (some (.closes returned))) := by
  constructor
  · intro f
    rw [Replay.frames_closeFrame]
    by_cases hf : f = frame
    · subst hf
      simp
    · rw [if_neg hf, Function.update_of_ne hf]
      exact h.active f
  · intro f other
    rw [Replay.returned_closeFrame]
    by_cases hf : f = frame
    · subst hf
      simp
    · rw [if_neg hf, Function.update_of_ne hf]
      exact h.returned f other
  · intro f
    show r.opened.contains f = true ↔ _
    by_cases hf : f = frame
    · -- a frame that closes was open, so the run has seen it
      subst hf
      have hopens := (h.active f).1 ⟨s, found⟩
      rw [h.opened f, hopens]
      simp
    · rw [Function.update_of_ne hf]
      exact h.opened f

theorem start (policy : Policy) (keepGoing : Bool) :
    Accords (Replay.new policy keepGoing : Replay L) .start := by
  constructor
  · intro f
    simp [Replay.new, Lives.start]
  · intro f returned
    simp [Replay.new, Lives.start]
  · intro f
    simp [Replay.new, Lives.start]

theorem contains_frames (h : Accords r lives) (f : String) :
    r.frames.contains f = true ↔ lives f = some .opens := by
  rw [Replay.contains_frames, Option.isSome_iff_exists]
  exact h.active f

theorem contains_returned (h : Accords r lives) (f : String) :
    r.returned.contains f = true ↔ ∃ returned, lives f = some (.closes returned) := by
  rw [Std.ExtTreeMap.contains_eq_isSome_getElem?, Option.isSome_iff_exists]
  exact exists_congr (h.returned f)

/-- A frame has closed when the run has seen it and it is not open. -/
theorem closed_iff (h : Accords r lives) (f : String) :
    r.frames[f]? = none ∧ r.opened.contains f = true ↔
      ∃ returned, lives f = some (.closes returned) := by
  rw [h.opened f, Option.eq_none_iff_forall_ne_some]
  constructor
  · rintro ⟨habsent, hseen⟩
    obtain ⟨event, hevent⟩ := Option.ne_none_iff_exists'.1 hseen
    cases event with
    | opens =>
        obtain ⟨s, hfound⟩ := (h.active f).2 hevent
        exact absurd hfound (habsent s)
    | closes returned => exact ⟨returned, hevent⟩
  · rintro ⟨returned, hcloses⟩
    rw [hcloses]
    refine ⟨fun s hfound => ?_, Option.some_ne_none _⟩
    have hopens := (h.active f).1 ⟨s, hfound⟩
    rw [hcloses] at hopens
    cases hopens

/-- A step gets as far as asking for its session unless it is refused before. -/
theorem ready_iff (h : Accords r lives) (op : TraceOp L) : r.Ready op ↔ lives.Admits op := by
  cases op with
  | call callee arguments =>
      show r.frames[callee]? = none ↔ lives callee ≠ some .opens
      rw [Ne, ← h.active callee, ← Option.ne_none_iff_exists', not_not]
  | takeReturn callee name =>
      show r.returned[callee]? ≠ none ↔ ∃ returned, lives callee = some (.closes returned)
      rw [Option.ne_none_iff_exists']
      exact exists_congr (h.returned callee)
  | _ => exact Iff.rfl

theorem withKeepGoing (h : Accords r lives) (keepGoing : Bool) :
    Accords (r.withKeepGoing keepGoing) lives :=
  ⟨h.active, h.returned, h.opened⟩

variable [Level L] {step : Step L} {index : Nat}

/-- A step that gets hold of the session of its frame has opened it, if need be. -/
theorem acts (h : Accords r lives) (hacts : r.Acts frame s r₁) :
    Accords r₁ (lives.enter frame) := by
  unfold Lives.enter
  cases hacts with
  | isOpen found =>
      have hopens := (h.active frame).1 ⟨s, found⟩
      have hsame : update lives frame ((lives frame).or (some .opens)) = lives := by
        rw [hopens, Option.some_or, ← hopens, Function.update_eq_self]
      rw [hsame]
      exact h
  | opens absent fresh =>
      have hnone : lives frame = none := by
        by_contra hne
        rw [(h.opened frame).2 hne] at fresh
        cases fresh
      rw [hnone, Option.none_or]
      exact h.openRoot hnone _

theorem does (h : Accords r lives) (hdoes : r.Does step r') (index : Nat) :
    Accords r' (lives.next r index step) := by
  have hresult := (Replay.apply_of_does hdoes index).1
  unfold Lives.next
  cases hdoes with
  | action acts operands rule =>
      simp only [hresult, TurnedAway, Bool.false_eq_true, if_false]
      exact (h.acts acts).setSession acts.found _ _
  | call absent acts operands =>
      simp only [hresult, TurnedAway, Bool.false_eq_true, if_false]
      exact (h.acts acts).openFrame _ _
  | close acts balanced =>
      simp only [hresult, TurnedAway, Bool.false_eq_true, if_false, acts.current_eq]
      exact (h.acts acts).closeFrame acts.found _
  | takeReturn closed acts rule =>
      simp only [hresult, TurnedAway, Bool.false_eq_true, if_false]
      exact (h.acts acts).setSession acts.found _ _

theorem stops {fault : Nat → ReplayFault} (h : Accords r lives) (hstops : r.Stops step fault r')
    (index : Nat) : Accords r' (lives.next r index step) := by
  have hresult := (Replay.apply_of_stops hstops index).1
  -- a step that fails opens no callee and closes nothing
  have hnext : lives.next r index step =
      if TurnedAway (.error (fault index)) then lives else lives.enter step.frame := by
    unfold Lives.next
    rw [hresult]
    cases step.op <;> rfl
  rw [hnext]
  cases hstops with
  | calleeOpen found => exact h
  | notReturned absent => exact h
  | closed ready absent opened => exact h
  | unread acts unread => exact h.acts acts
  | action acts operands fault => exact h.acts acts
  | call absent acts unread => exact h.acts acts
  | close acts unbalanced => exact h.acts acts
  | takeReturn closed acts fault => exact h.acts acts

theorem apply (h : Accords r lives) (index : Nat) (step : Step L) :
    Accords (r.apply index step).state (lives.next r index step) := by
  rcases r.does_or_stops step with ⟨r', hdoes⟩ | ⟨fault, r', hstops⟩
  · rw [(Replay.apply_of_does hdoes index).2]
    exact h.does hdoes index
  · rw [(Replay.apply_of_stops hstops index).2]
    exact h.stops hstops index

/-- **The tables of a replay accord with the lives of the frames** after any steps. -/
theorem after (h : Accords r lives) (index : Nat) (steps : List (Step L)) :
    Accords (r.after index steps) (lives.after r index steps) := by
  induction steps generalizing r lives index with
  | nil => exact h
  | cons step steps ih => exact ih (h.apply index step) (index + 1)

end Accords

/-! ## §3  The states of a replay -/

namespace Replay

variable [Level L] {r : Replay L} {lives : Lives L} {frame : String} {step : Step L} {index : Nat}

/-- The steps of a trace that a run carries out: those up to the one that ends it. -/
def executed (r : Replay L) (trace : Trace L) : List (Step L) :=
  match (r.run trace).result with
  | .ok report => trace.steps.take report.stepsExecuted
  | .error e => trace.steps.take (e.step + 1)

/-- A run that comes to a report has advanced through the steps that it carries out. -/
theorem advances_executed {trace : Trace L} {report : Report}
    (h : (r.run trace).result = .ok report) :
    (r.executed trace).length = report.stepsExecuted ∧
      Advances r.reset 0 (r.executed trace) report.violations (r.run trace).state := by
  obtain ⟨done, rest, hsteps, hexecuted, hadvances, -⟩ := advances_of_run h
  have htake : r.executed trace = done := by
    unfold executed
    rw [h]
    simp only [hsteps, hexecuted, List.take_left]
  rw [htake]
  exact ⟨hexecuted.symm, hadvances⟩

/-- A run that is aborted has advanced through all the steps that it carries out but the last. -/
theorem executed_of_abort {trace : Trace L} {e : ReplayFault}
    (h : (r.run trace).result = .error e) :
    ∃ done step violations r₁ fault, r.executed trace = done ++ [step] ∧
      Advances r.reset 0 done violations r₁ ∧ Stops r₁ step fault (r.run trace).state ∧
      fault done.length = e ∧ e.violation? = none := by
  obtain ⟨done, step, rest, violations, r₁, fault, hsteps, hadvances, -, hstops, hfault, hnone⟩ :=
    advances_of_abort h
  refine ⟨done, step, violations, r₁, fault, ?_, hadvances, hstops, hfault, hnone⟩
  unfold executed
  rw [h]
  simp only [hsteps, ← hfault, hstops.step_eq, List.take_length_add_append, List.take_succ_cons,
    List.take_zero]

/-- **What a run leaves is the replay after the steps that it carries out**: it stops early at
a fault, and at an illegal flow unless it goes on after them. -/
theorem state_run_eq (r : Replay L) (trace : Trace L) :
    (r.run trace).state = r.reset.after 0 (r.executed trace) := by
  cases hresult : (r.run trace).result with
  | ok report => exact (advances_executed hresult).2.after_eq.symm
  | error e =>
      obtain ⟨done, step, violations, r₁, fault, hexecuted, hadvances, hstops, -, -⟩ :=
        executed_of_abort hresult
      rw [hexecuted, after_append, hadvances.after_eq]
      exact (apply_of_stops hstops _).2.symm

/-- `Reached r lives`: a replay can get into state `r` by steps and runs, and in the
run that it is in, the frames have led the `lives`. -/
inductive Reached : Replay L → Lives L → Prop
  | new (policy : Policy) (keepGoing : Bool) : Reached (.new policy keepGoing) .start
  | withKeepGoing {r : Replay L} {lives : Lives L} (h : Reached r lives) (keepGoing : Bool) :
      Reached (r.withKeepGoing keepGoing) lives
  | reset {r : Replay L} {lives : Lives L} (h : Reached r lives) : Reached r.reset .start
  | apply {r : Replay L} {lives : Lives L} (h : Reached r lives) (index : Nat) (step : Step L) :
      Reached (r.apply index step).state (lives.next r index step)
  | run {r : Replay L} {lives : Lives L} (h : Reached r lives) (trace : Trace L) :
      Reached (r.run trace).state (Lives.start.after r.reset 0 (r.executed trace))

theorem Reached.accords (h : Reached r lives) : Accords r lives := by
  induction h with
  | new policy keepGoing => exact .start policy keepGoing
  | withKeepGoing h keepGoing ih => exact ih.withKeepGoing keepGoing
  | reset h ih => exact .start _ _
  | apply h index step ih => exact ih.apply index step
  | run h trace ih =>
      rw [state_run_eq]
      exact (Accords.start _ _).after 0 _

/-! ## §4  Steps that are refused -/

variable {n : Nat} {f : String}

theorem result_eq_error_iff {e : ReplayFault} :
    (r.apply index step).result = .error e ↔
      ∃ fault r', fault index = e ∧ Stops r step fault r' := by
  constructor
  · intro herror
    obtain ⟨fault, hfault, hstops⟩ := stops_of_error herror
    exact ⟨fault, _, hfault, hstops⟩
  · rintro ⟨fault, r', rfl, hstops⟩
    exact (apply_of_stops hstops index).1

theorem alreadyOpen_iff :
    (r.apply index step).result = .error (.alreadyOpen n f) ↔
      n = index ∧ ∃ arguments s, step.op = .call f arguments ∧ r.frames[f]? = some s := by
  rw [result_eq_error_iff]
  constructor
  · rintro ⟨fault, r', hfault, hstops⟩
    cases hstops with
    | calleeOpen found =>
        cases hfault
        exact ⟨rfl, _, _, rfl, found⟩
    | _ => cases hfault
  · rintro ⟨rfl, arguments, s, hop, hfound⟩
    obtain ⟨frame, op⟩ := step
    obtain rfl : op = .call f arguments := hop
    exact ⟨_, r, rfl, .calleeOpen hfound⟩

theorem notReturned_iff :
    (r.apply index step).result = .error (.notReturned n f) ↔
      n = index ∧ ∃ name, step.op = .takeReturn f name ∧ r.returned[f]? = none := by
  rw [result_eq_error_iff]
  constructor
  · rintro ⟨fault, r', hfault, hstops⟩
    cases hstops with
    | notReturned absent =>
        cases hfault
        exact ⟨rfl, _, rfl, absent⟩
    | _ => cases hfault
  · rintro ⟨rfl, name, hop, habsent⟩
    obtain ⟨frame, op⟩ := step
    obtain rfl : op = .takeReturn f name := hop
    exact ⟨_, r, rfl, .notReturned habsent⟩

theorem alreadyClosed_iff :
    (r.apply index step).result = .error (.alreadyClosed n f) ↔
      n = index ∧ f = step.frame ∧ r.Ready step.op ∧ r.frames[f]? = none ∧
        r.opened.contains f = true := by
  rw [result_eq_error_iff]
  constructor
  · rintro ⟨fault, r', hfault, hstops⟩
    cases hstops with
    | closed ready absent opened =>
        cases hfault
        exact ⟨rfl, rfl, ready, absent, opened⟩
    | _ => cases hfault
  · rintro ⟨rfl, rfl, hready, habsent, hopened⟩
    exact ⟨_, r, rfl, .closed hready habsent hopened⟩

/-! ## §5  Sessions that are looked up -/

/-- A frame that was seen to be open, or has been opened, is found. -/
theorem found_of_ensureOpen (hopen : (r.ensureOpen index frame).result = .ok ()) :
    ∃ s, (r.ensureOpen index frame).state.frames[frame]? = some s := by
  rcases r.acts_or_closed frame with ⟨s, r₁, hacts⟩ | ⟨habsent, hopened⟩
  · rw [(hacts.ensureOpen index).2]
    exact ⟨s, hacts.found⟩
  · unfold ensureOpen at hopen
    rw [contains_frames, habsent, hopened] at hopen
    cases hopen

/-- The session that a step gets hold of is the one that stands under its frame. -/
theorem found_of_session {s : Session L} (hsession : (r.session index frame).result = .ok s) :
    (r.session index frame).state.frames[frame]? = some s := by
  rcases r.acts_or_closed frame with ⟨s', r₁, hacts⟩ | ⟨habsent, hopened⟩
  · obtain ⟨hresult, hstate⟩ := hacts.session index
    rw [hresult] at hsession
    cases hsession
    rw [hstate]
    exact hacts.found
  · rw [(session_of_closed habsent hopened index).1] at hsession
    cases hsession

/-! ## §6  The lifecycle -/

/-- **The life of a frame decides what its steps may do.** In whatever state a replay
has got into, the frames that the run has seen are those that are open and those that
have an entry among the returns, and no frame is both. A step is refused because its
frame has closed exactly if the latest event in the life of this frame is that it
closes, unless the step calls an open frame or takes a return level from one that is
not closed, which is refused first. A return level that is taken is the one that the
callee has closed with last. A frame that has been opened is found, and a session that may
close is found again, ends without a fault, and leaves what it has returned. -/
theorem Reached.lifecycle (h : Reached r lives) :
    (∀ f, r.opened.contains f = true ↔
      r.frames.contains f = true ∨ r.returned.contains f = true) ∧
    (∀ f, ¬(r.frames.contains f = true ∧ r.returned.contains f = true)) ∧
    (∀ index step n f,
      ((r.apply index step).result = .error (.alreadyClosed n f) ↔
        n = index ∧ f = step.frame ∧ lives.Admits step.op ∧
          ∃ returned, lives f = some (.closes returned)) ∧
      ((r.apply index step).result = .error (.alreadyOpen n f) ↔
        n = index ∧ ∃ arguments, step.op = .call f arguments ∧ lives f = some .opens) ∧
      ((r.apply index step).result = .error (.notReturned n f) ↔
        n = index ∧ ∃ name, step.op = .takeReturn f name ∧
          ¬∃ returned, lives f = some (.closes returned))) ∧
    (∀ index frame callee name returned, lives callee = some (.closes returned) →
      r.apply index ⟨frame, .takeReturn callee name⟩ =
        (r.onSession index frame (Operation.write name (returned.getD bottom)).perform).map
          fun _ => ()) ∧
    ∀ index frame,
      ((r.ensureOpen index frame).result = .ok () →
        ∃ s, (r.ensureOpen index frame).state.frames[frame]? = some s) ∧
      ∀ s, (r.session index frame).result = .ok s → s.checkClose = .ok () →
        let r₁ := (r.session index frame).state
        r₁.frames[frame]? = some s ∧ (r₁.finish index frame).result = .ok () ∧
          (r₁.finish index frame).state = r₁.closeFrame frame s.returned := by
  have hlives := h.accords
  refine ⟨?_, ?_, ?_, ?_, ?_⟩
  · intro f
    rw [hlives.opened f, hlives.contains_frames, hlives.contains_returned]
    constructor
    · intro hseen
      obtain ⟨event, hevent⟩ := Option.ne_none_iff_exists'.1 hseen
      cases event with
      | opens => exact Or.inl hevent
      | closes returned => exact Or.inr ⟨returned, hevent⟩
    · rintro (hopens | ⟨returned, hcloses⟩)
      · rw [hopens]
        exact Option.some_ne_none _
      · rw [hcloses]
        exact Option.some_ne_none _
  · intro f
    rw [hlives.contains_frames, hlives.contains_returned]
    rintro ⟨hopens, returned, hcloses⟩
    rw [hopens] at hcloses
    cases hcloses
  · intro index step n f
    refine ⟨?_, ?_, ?_⟩
    · rw [alreadyClosed_iff, hlives.ready_iff, hlives.closed_iff]
    · rw [alreadyOpen_iff]
      simp only [exists_and_left, hlives.active]
    · rw [notReturned_iff]
      simp only [Option.eq_none_iff_forall_ne_some, Ne, hlives.returned, not_exists]
  · intro index frame callee name returned hcloses
    have hreturned := (hlives.returned callee returned).2 hcloses
    simp only [Replay.apply, Replay.takeReturn, hreturned]
  · intro index frame
    refine ⟨found_of_ensureOpen, fun s hsession hbalanced => ?_⟩
    have hfound := found_of_session hsession
    exact ⟨hfound, finish_of_balanced hfound hbalanced index⟩

section Witness

/-- A frame is called and returns a secret; it is called again and returns nothing. -/
def calledTwice : Trace TwoLevel where
  description := ""
  steps :=
    [⟨"main", .call "f" []⟩, ⟨"f", .action (.declare "r")⟩,
      ⟨"f", .action (.label "r" .high)⟩, ⟨"f", .action (.returnLocal "r")⟩, ⟨"f", .close⟩,
      ⟨"main", .call "f" []⟩, ⟨"f", .close⟩, ⟨"main", .action (.declare "x")⟩]

/-- A replay after this trace. -/
def afterCalledTwice : Replay TwoLevel := ((new {} false).run calledTwice).state

/-- The secret that was returned first is not taken, and the frame stays closed. -/
theorem lifecycle_calledTwice :
    afterCalledTwice.returned.contains "f" = true ∧
      (∀ op : TraceOp TwoLevel, (∃ action, op = .action action) →
        (afterCalledTwice.apply 8 ⟨"f", op⟩).result = .error (.alreadyClosed 8 "f")) ∧
      afterCalledTwice.apply 8 ⟨"main", .takeReturn "f" "x"⟩ =
        (afterCalledTwice.onSession 8 "main" (Operation.write "x" TwoLevel.low).perform).map
          fun _ => () := by
  have hreached := (Reached.new (L := TwoLevel) {} false).run calledTwice
  have hcloses : (Lives.start.after ((new {} false : Replay TwoLevel).reset) 0
      ((new {} false).executed calledTwice)) "f" = some (.closes none) := by rfl
  obtain ⟨hseen, -, hfaults, htakes, -⟩ := hreached.lifecycle
  refine ⟨by rfl, ?_, htakes 8 "main" "f" "x" none hcloses⟩
  rintro op ⟨action, rfl⟩
  exact (hfaults 8 ⟨"f", .action action⟩ 8 "f").1.2 ⟨rfl, rfl, trivial, none, hcloses⟩

end Witness

end Replay

end InfoFlow
