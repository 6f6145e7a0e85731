import InfoFlow.Level.Chain
import InfoFlow.Proofs.Replay.Rules
import InfoFlow.Proofs.Session.Repetition

/-!
# Repeating a step

A trace may record a step twice: if it is not the beginning or the end of a branch or of a
frame, and it has succeeded once, then it succeeds again, and all that the replay keeps is as
it was (`apply_again`).
-/

namespace InfoFlow

open Level (bottom)

variable {L : Type}

/-- Every step but those that begin or end a branch or a frame. -/
def TraceOp.Repeatable : TraceOp L → Prop
  | action asked => asked.Repeatable
  | takeReturn _ _ => True
  | call _ _ => False
  | close => False

namespace Replay

variable [Level L] {r r' : Replay L} {step : Step L}

/-- A session that is put down is found in its place, and putting it there again changes
nothing. -/
theorem setSession_again (r : Replay L) (frame : String) (s : Session L) (heap : Heap L) :
    Acts { r.setSession frame s with heap := heap } frame s
        { r.setSession frame s with heap := heap } ∧
      ({ r.setSession frame s with heap := heap } : Replay L).setSession frame s =
        { r.setSession frame s with heap := heap } := by
  have hfound : ({ r.setSession frame s with heap := heap } : Replay L).frames[frame]? = some s :=
    found_setSession r frame s
  exact ⟨.isOpen hfound, setSession_self hfound⟩

variable [LawfulBottom L]

/-- **What a step has left, it leaves again.** -/
theorem Does.again (h : Does r step r') (hrepeatable : step.op.Repeatable) : Does r' step r' := by
  cases h with
  | @action frame action s s' r₁ level reply heap' acts operands rule =>
      obtain ⟨hacts, hsame⟩ := setSession_again r₁ frame s' heap'
      obtain ⟨level', hread, hjoin⟩ := rule.operandLevel_again hrepeatable operands
      have hdoes := Does.action hacts hread (rule.again hrepeatable hjoin)
      rwa [hsame] at hdoes
  | call absent acts operands => exact hrepeatable.elim
  | close acts balanced => exact hrepeatable.elim
  | @takeReturn frame callee name returned s s' r₁ reply heap' closed acts rule =>
      obtain ⟨hacts, hsame⟩ := setSession_again r₁ frame s' heap'
      -- what was returned is written as a constant at its level would be
      have hagain : ((Action.write name []).operation (returned.getD bottom)).Succeeds s' heap'
          reply s' heap' := by
        refine Operation.Succeeds.again ?_ rule rfl
        exact trivial
      have hclosed : r₁.returned[callee]? = some returned := by rw [acts.returned_eq, closed]
      have hdoes : Does { r₁.setSession frame s' with heap := heap' } _ _ :=
        .takeReturn hclosed hacts hagain
      rwa [hsame] at hdoes

/-- **Repeating a step that has succeeded is harmless.** -/
theorem apply_again (hrepeatable : step.op.Repeatable) {index : Nat}
    (h : (r.apply index step).result = .ok ()) (later : Nat) :
    ((r.apply index step).state.apply later step).result = .ok () ∧
      ((r.apply index step).state.apply later step).state = (r.apply index step).state :=
  apply_of_does ((does_of_ok h).again hrepeatable) later

section Witness

/-- In a branch on a secret, an element of an array is about to be written. -/
def beforeSelfWrite : Replay TwoLevel :=
  (new {} false).after 0
    [⟨"main", .action (.trackArray ⟨1⟩ 2)⟩, ⟨"main", .action (.declare "x")⟩,
      ⟨"main", .action (.label "x" .high)⟩, ⟨"main", .action (.enter ⟨"a"⟩ [.local "x"])⟩]

/-- An element of an array is computed from itself, under its name as a field. -/
def selfWrite : Step TwoLevel := ⟨"main", .action (.writeElement ⟨1⟩ 0 [.field ⟨1⟩ "0"])⟩

/-- The element is raised by the first write and stays as it is at the second, though this one
reads a secret. -/
theorem apply_again_selfWrite :
    selfWrite.op.Repeatable ∧ (beforeSelfWrite.apply 4 selfWrite).result = .ok () ∧
      beforeSelfWrite.heap.level? ⟨1⟩ "0" = some .low ∧
      (beforeSelfWrite.apply 4 selfWrite).state.heap.level? ⟨1⟩ "0" = some .high ∧
      ((beforeSelfWrite.apply 4 selfWrite).state.apply 5 selfWrite).result = .ok () ∧
      ((beforeSelfWrite.apply 4 selfWrite).state.apply 5 selfWrite).state =
        (beforeSelfWrite.apply 4 selfWrite).state := by
  have hfirst : (beforeSelfWrite.apply 4 selfWrite).result = .ok () := by rfl
  have hrepeatable : selfWrite.op.Repeatable := trivial
  exact ⟨hrepeatable, hfirst, by rfl, by rfl, apply_again hrepeatable hfirst 5⟩

end Witness

end Replay

end InfoFlow
