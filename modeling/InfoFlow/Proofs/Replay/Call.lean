import InfoFlow.Proofs.Replay.Lifecycle

/-!
# What a call leaves

A call asks first whether the callee is open, gets hold of the session of the caller
then, and opens the callee last. So it adds the session of the callee and leaves every
session that was open where it is (`Called`). The caller itself may have been opened by
the same step; it keeps its session too, unless it is the callee as well. A frame that
the run has not seen and that calls itself is not open when this is asked: its root
session is opened and at once gives way to that of the callee (`call_unseen`).
-/

namespace InfoFlow

namespace Replay

variable {L : Type} [Level L] {r r₁ r' : Replay L} {lives : Lives L} {caller callee : String}
  {arguments : List (Operand L)} {s : Session L} {levels : List L} {index : Nat}

/-! ## §1  Calls that succeed -/

/-- `Called r caller callee arguments r'`: the call has left `r'`, where nothing is lost
that was open in `r`. -/
structure Called (r : Replay L) (caller callee : String) (arguments : List (Operand L))
    (r' : Replay L) : Prop where
  /-- Every frame that was open has another name than the callee, and keeps its session. -/
  kept : ∀ f s, r.frames[f]? = some s → f ≠ callee ∧ r'.frames[f]? = some s
  /-- The caller is open with the session in which the arguments were read. -/
  caller_kept : caller ≠ callee → r'.frames[caller]? = some (r.current caller)
  /-- The callee is open with a session of its own, which the caller has started. -/
  callee_opened : ∃ levels,
    ((r.current caller).argumentLevels r.heap arguments).result = .ok levels ∧
      r'.frames[callee]? = some ((r.current caller).call callee levels)
  /-- No other frame is concerned. -/
  others : ∀ f, f ≠ caller → f ≠ callee → r'.frames[f]? = r.frames[f]?

theorem Acts.frames_of_ne (h : Acts r caller s r₁) {f : String} (hf : f ≠ caller) :
    r₁.frames[f]? = r.frames[f]? := by
  cases h with
  | isOpen found => rfl
  | opens absent fresh => rw [frames_openRoot, if_neg hf]

theorem Acts.called (h : Acts r caller s r₁) (absent : r.frames[callee]? = none)
    (operands : (s.argumentLevels r₁.heap arguments).result = .ok levels) :
    Called r caller callee arguments (r₁.openFrame callee (s.call callee levels)) where
  kept := by
    intro f other hf
    have hne : f ≠ callee := by
      rintro rfl
      rw [absent] at hf
      cases hf
    rw [frames_openFrame, if_neg hne]
    exact ⟨hne, h.frames_of_some hf⟩
  caller_kept := by
    intro hne
    rw [frames_openFrame, if_neg hne, h.found, h.current_eq]
  callee_opened := by
    rw [h.heap_eq] at operands
    rw [frames_openFrame, if_pos rfl, h.current_eq]
    exact ⟨levels, operands, rfl⟩
  others := by
    intro f hcaller hcallee
    rw [frames_openFrame, if_neg hcallee, h.frames_of_ne hcaller]

theorem called_of_ok
    (hok : (r.apply index ⟨caller, .call callee arguments⟩).result = .ok ()) :
    r.frames[callee]? = none ∧
      Called r caller callee arguments (r.apply index ⟨caller, .call callee arguments⟩).state := by
  have hdoes := does_of_ok hok
  generalize (r.apply index ⟨caller, .call callee arguments⟩).state = r' at hdoes
  cases hdoes with
  | call absent acts operands => exact ⟨absent, acts.called absent operands⟩

/-! ## §2  Calls of the caller -/

/-- A frame that the run has seen cannot call itself: it is open, or has closed. -/
theorem selfCall_refused (h : Accords r lives) (hseen : lives caller ≠ none) :
    (r.apply index ⟨caller, .call caller arguments⟩).result =
        .error (.alreadyOpen index caller) ∨
      (r.apply index ⟨caller, .call caller arguments⟩).result =
        .error (.alreadyClosed index caller) := by
  cases hfound : r.frames[caller]? with
  | some s => exact Or.inl (alreadyOpen_iff.2 ⟨rfl, arguments, s, rfl, hfound⟩)
  | none =>
      exact Or.inr (alreadyClosed_iff.2 ⟨rfl, rfl, hfound, hfound, (h.opened caller).2 hseen⟩)

/-- A frame that the run has not seen can call itself, and loses its session. -/
theorem call_unseen (h : Accords r lives) (hunseen : lives caller = none)
    (operands : ((r.current caller).argumentLevels r.heap arguments).result = .ok levels) :
    let o := r.apply index ⟨caller, .call caller arguments⟩
    o.result = .ok () ∧ o.state.frames[caller]? = some ((r.current caller).call caller levels) := by
  have habsent : r.frames[caller]? = none := by
    rw [Option.eq_none_iff_forall_ne_some]
    intro s hfound
    rw [(h.active caller).1 ⟨s, hfound⟩] at hunseen
    cases hunseen
  have hfresh : r.opened.contains caller = false := by
    rw [← Bool.not_eq_true, h.opened caller, not_not]
    exact hunseen
  have hacts := Acts.opens habsent hfresh
  rw [hacts.current_eq, ← hacts.heap_eq] at operands
  obtain ⟨hresult, hstate⟩ := apply_of_does (.call habsent hacts operands) index
  rw [hacts.current_eq]
  refine ⟨hresult, ?_⟩
  rw [hstate, frames_openFrame, if_pos rfl]

/-! ## §3  Calls in every state -/

/-- **A call adds the session of the callee and keeps every other.** In whatever state
a replay has got into, a call of an open frame is refused. One that succeeds leaves
every open frame with its session under a name other than that of the callee, the
caller too, which this step may have opened, and the callee open in addition. That
caller and callee are one frame is refused if the run has seen it; if it has not, the
call succeeds as soon as its arguments can be read, and what is open afterwards is the
callee in place of the caller. -/
theorem Reached.calls (h : Reached r lives) (index : Nat) (caller callee : String)
    (arguments : List (Operand L)) :
    let o := r.apply index ⟨caller, .call callee arguments⟩
    (lives callee = some .opens → o.result = .error (.alreadyOpen index callee)) ∧
    (o.result = .ok () → Called r caller callee arguments o.state) ∧
    (caller = callee → lives caller ≠ none →
      o.result = .error (.alreadyOpen index callee) ∨
        o.result = .error (.alreadyClosed index callee)) ∧
    (caller = callee → lives caller = none →
      ∀ levels, ((r.current caller).argumentLevels r.heap arguments).result = .ok levels →
        o.result = .ok () ∧
          o.state.frames[callee]? = some ((r.current caller).call callee levels)) := by
  have hlives := h.accords
  refine ⟨?_, fun hok => (called_of_ok hok).2, ?_, ?_⟩
  · intro hopens
    obtain ⟨s, hfound⟩ := (hlives.active callee).2 hopens
    exact alreadyOpen_iff.2 ⟨rfl, arguments, s, rfl, hfound⟩
  · rintro rfl hseen
    exact selfCall_refused hlives hseen
  · rintro rfl hunseen levels operands
    exact call_unseen hlives hunseen operands

section Witness

/-- A frame is open while another one, which the step opens as a root frame, calls a third. -/
theorem calls_keepsMain :
    let r := (new {} false : Replay TwoLevel).after 0 [⟨"main", .action (.declare "x")⟩]
    (r.apply 1 ⟨"g", .call "f" [.constant]⟩).result = .ok () ∧
      Called r "g" "f" [.constant] (r.apply 1 ⟨"g", .call "f" [.constant]⟩).state ∧
      (r.apply 1 ⟨"g", .call "f" [.constant]⟩).state.openFrames = ["f", "g", "main"] := by
  intro r
  have hreached := (Reached.new (L := TwoLevel) {} false).apply 0 ⟨"main", .action (.declare "x")⟩
  have hok : (r.apply 1 ⟨"g", .call "f" [.constant]⟩).result = .ok () := by rfl
  exact ⟨hok, (hreached.calls 1 "g" "f" [.constant]).2.1 hok, by rfl⟩

/-- The first step of a run is a call of its own frame. It succeeds, and the session of
the caller, opened by this very step, is not open afterwards: another one, which has an
argument, stands under its name. -/
theorem selfCall_succeeds :
    let r := (new {} false : Replay TwoLevel)
    Reached r .start ∧ (r.apply 0 ⟨"f", .call "f" [.constant]⟩).result = .ok () ∧
      ∃ s, (r.apply 0 ⟨"f", .call "f" [.constant]⟩).state.frames["f"]? = some s ∧
        s.arguments = [.low] ∧ (r.current "f").arguments = [] := by
  exact ⟨.new {} false, by rfl, _, by rfl, by rfl, by rfl⟩

end Witness

end Replay

end InfoFlow
