import InfoFlow.Level.Chain
import InfoFlow.Proofs.Replay.Rules

/-!
# What a failure leaves

An operation of a session that fails leaves the session and the heap as they are,
also where it does several things one after the other: what can fail comes before
what changes anything. A step of a replay that fails leaves the replay as it is, but
for one thing: the frame of the step may have been opened, as a root frame in which
nothing has happened (`OnlyOpens`). A frame that may not close stays open as it is
(`unchanged_of_error`).
-/

namespace InfoFlow

variable {L : Type} [Level L]

namespace Replay

variable {r r₁ r' : Replay L} {frame : String} {s : Session L} {step : Step L}
  {fault : Nat → ReplayFault}

/-- `r'` is `r`, or `r` with `frame`, which this run has not seen, open as a root
frame in which nothing has happened. -/
def OnlyOpens (r : Replay L) (frame : String) (r' : Replay L) : Prop :=
  r' = r ∨ r.opened.contains frame = false ∧
    r' = { r with
      frames := r.frames.insert frame ((Session.root r.policy).named frame)
      opened := r.opened.insert frame }

theorem Acts.onlyOpens (h : Acts r frame s r₁) : OnlyOpens r frame r₁ := by
  cases h with
  | isOpen found => exact Or.inl rfl
  | opens absent fresh => exact Or.inr ⟨fresh, rfl⟩

theorem Stops.onlyOpens (h : Stops r step fault r') : OnlyOpens r step.frame r' := by
  rcases h.state_cases with hsame | ⟨s, hacts⟩
  · exact Or.inl hsame
  · exact hacts.onlyOpens

/-- A root frame in which nothing has happened may close. -/
theorem checkClose_root (policy : Policy) (frame : String) :
    (((Session.root policy).named frame : Session L)).checkClose = .ok () := by
  show (if policy.balancedClose && !true then _ else Except.ok ()) = _
  rw [Bool.not_true, Bool.and_false]
  rfl

/-- A frame that may not close was open before, and nothing has changed. -/
theorem Stops.eq_of_close {cause : Fault} {index : Nat} (h : Stops r ⟨frame, .close⟩ fault r')
    (hcause : fault index = .fault index frame cause) :
    (∃ s, r.frames[frame]? = some s) ∧ r' = r := by
  cases h with
  | closed ready absent opened => cases hcause
  | close acts unbalanced =>
      cases acts with
      | isOpen found => exact ⟨⟨_, found⟩, rfl⟩
      | opens absent fresh =>
          rw [checkClose_root] at unbalanced
          cases unbalanced

end Replay

/-- **A failure changes nothing.** Whatever operation of a session fails, the session
and the heap are as before. Whatever step fails after some steps of a replay, those
that failed included, the replay is as before, except that the frame of the step, if
it was not seen in this run, may now be open as a root frame in which nothing has
happened. When a frame may not close, it was open and the replay is as before. -/
theorem unchanged_of_error :
    (∀ (op : Operation L) (s : Session L) (heap : Heap L) (e : Fault),
      (op.perform s heap).result = .error e → (op.perform s heap).state = (s, heap)) ∧
    ∀ (policy : Policy) (keepGoing : Bool) (done : List (Step L)) (index : Nat) (step : Step L)
      (e : ReplayFault),
      let r := (Replay.new policy keepGoing).after 0 done
      let o := r.apply index step
      o.result = .error e →
        r.OnlyOpens step.frame o.state ∧
        ∀ cause, step.op = .close → e = .fault index step.frame cause →
          (∃ s, r.frames[step.frame]? = some s) ∧ o.state = r := by
  constructor
  · intro op s heap e herror
    exact Operation.state_of_error herror
  · intro policy keepGoing done index step e r o herror
    obtain ⟨fault, rfl, hstops⟩ := Replay.stops_of_error herror
    refine ⟨hstops.onlyOpens, ?_⟩
    intro cause hclose hcause
    obtain ⟨frame, op⟩ := step
    obtain rfl : op = .close := hclose
    exact hstops.eq_of_close hcause

section Witness

/-- A frame that is in a branch. -/
def inBranch : Replay TwoLevel :=
  (Replay.new {} false).after 0 [⟨"main", .action (.enter ⟨"loop"⟩ [.literal .high])⟩]

/-- A field is written under a policy that does not register it; a frame reads a local
of which it has none in its first step; a frame closes inside a branch. -/
theorem unchanged_of_error_inBranch :
    ((Operation.writeField ⟨7⟩ "pin" TwoLevel.high).perform (.root .strict) .empty).state =
        (.root .strict, .empty) ∧
      inBranch.OnlyOpens "f" (inBranch.apply 1 ⟨"f", .action (.write "x" [.local "y"])⟩).state ∧
      (inBranch.apply 1 ⟨"f", .action (.write "x" [.local "y"])⟩).state.openFrames =
        ["f", "main"] ∧
      (inBranch.apply 1 ⟨"main", .close⟩).result = .error (.fault 1 "main" (.unbalanced "main" 1)) ∧
      (inBranch.apply 1 ⟨"main", .close⟩).state = inBranch := by
  obtain ⟨hoperation, hstep⟩ := unchanged_of_error (L := TwoLevel)
  have hwrite : ((Operation.writeField ⟨7⟩ "pin" TwoLevel.high).perform (.root .strict)
      .empty).result = .error (.unregistered (.field ⟨7⟩ "pin")) := by rfl
  have hread : (inBranch.apply 1 ⟨"f", .action (.write "x" [.local "y"])⟩).result =
      .error (.fault 1 "f" (.unregistered (.local "y"))) := by rfl
  have hclose : (inBranch.apply 1 ⟨"main", .close⟩).result =
      .error (.fault 1 "main" (.unbalanced "main" 1)) := by rfl
  refine ⟨hoperation _ _ _ _ hwrite, (hstep _ _ _ _ _ _ hread).1, by rfl, hclose, ?_⟩
  exact ((hstep _ _ _ _ _ _ hclose).2 (.unbalanced "main" 1) rfl rfl).2

end Witness

end InfoFlow
