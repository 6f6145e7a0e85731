import InfoFlow.Proofs.Session.Reading

/-!
# The level of a value

A value is as secret as what it was computed from: its level is the least one to which all of
its operands flow (`operandLevel_eq_ok_iff`). So it does not matter in which order the operands
are named, how often, and with how many constants among them (`joins_iff_of_rearranged`). It
matters only to a fault, which names the first operand that was never registered.
-/

namespace InfoFlow

open Level (join bottom)
open LawfulJoin LawfulBottom

variable {L : Type}

/-! ## §1  Other ways to name the same operands -/

namespace Operand

/-- `Rearranged operands operands'`: the second list names the operands of the first in another
order, or some of them again, or constants between them. -/
inductive Rearranged : List (Operand L) → List (Operand L) → Prop
  | permuted {operands operands' : List (Operand L)} (perm : operands.Perm operands') :
      Rearranged operands operands'
  | repeated {operand : Operand L} {operands : List (Operand L)} (named : operand ∈ operands) :
      Rearranged operands (operand :: operands)
  | constant (operands : List (Operand L)) : Rearranged operands (.constant :: operands)
  | trans {operands operands' operands'' : List (Operand L)}
      (first : Rearranged operands operands') (second : Rearranged operands' operands'') :
      Rearranged operands operands''

/-- What holds of constants holds of all operands of one list if it does of the other. -/
theorem Rearranged.forall_mem_iff {operands operands' : List (Operand L)}
    (h : Rearranged operands operands') {P : Operand L → Prop} (hconstant : P .constant) :
    (∀ operand ∈ operands', P operand) ↔ ∀ operand ∈ operands, P operand := by
  induction h with
  | permuted perm => simp only [perm.mem_iff]
  | repeated named =>
      rw [List.forall_mem_cons]
      exact and_iff_right_of_imp fun hall => hall _ named
  | constant operands =>
      rw [List.forall_mem_cons]
      exact and_iff_right hconstant
  | trans first second ih ih' => exact ih'.trans ih

/-- Only constants come in. -/
theorem Rearranged.mem_of_mem {operands operands' : List (Operand L)}
    (h : Rearranged operands operands') {operand : Operand L} (hmem : operand ∈ operands')
    (hne : operand ≠ .constant) : operand ∈ operands :=
  (h.forall_mem_iff (P := fun operand => operand ≠ .constant → operand ∈ operands)
    (absurd rfl)).2 (fun _ hmem _ => hmem) operand hmem hne

end Operand

namespace Session

variable [Level L] {s t : Session L} {heap heap' : Heap L} {operands operands' : List (Operand L)}
  {operand : Operand L} {level : L} {e : Fault}

/-! ## §2  The least level above the operands -/

/-- All operands have a level, and `level` is the least one to which they flow. -/
structure Joins (s : Session L) (heap : Heap L) (operands : List (Operand L)) (level : L) :
    Prop where
  readable : ∀ operand ∈ operands, ∃ read, s.levelOf heap operand = .ok read
  le_iff : ∀ bound, level ≤ bound ↔
    ∀ operand ∈ operands, ∀ read, s.levelOf heap operand = .ok read → read ≤ bound

/-- Operands that all have a level can be joined. -/
theorem exists_joinOperands
    (hreadable : ∀ operand ∈ operands, ∃ read, s.levelOf heap operand = .ok read) (start : L) :
    ∃ level, (s.joinOperands heap start operands).result = .ok level := by
  induction operands generalizing start with
  | nil => exact ⟨start, rfl⟩
  | cons operand operands ih =>
      obtain ⟨read, hread⟩ := hreadable operand List.mem_cons_self
      rw [result_joinOperands_cons, hread]
      exact ih (fun later hlater => hreadable later (List.mem_cons_of_mem _ hlater)) _

theorem joins_of_joinOperands [LawfulJoin L] {start : L}
    (h : (s.joinOperands heap start operands).result = .ok level) :
    (∀ operand ∈ operands, ∃ read, s.levelOf heap operand = .ok read) ∧
      ∀ bound, level ≤ bound ↔ start ≤ bound ∧
        ∀ operand ∈ operands, ∀ read, s.levelOf heap operand = .ok read → read ≤ bound := by
  induction operands generalizing start with
  | nil =>
      cases h
      simp
  | cons operand operands ih =>
      rw [result_joinOperands_cons] at h
      cases hread : s.levelOf heap operand with
      | error e =>
          rw [hread] at h
          cases h
      | ok read =>
          rw [hread] at h
          obtain ⟨hreadable, hle⟩ := ih h
          refine ⟨List.forall_mem_cons.2 ⟨⟨read, hread⟩, hreadable⟩, fun bound => ?_⟩
          simp [hle, join_le_iff, and_assoc, hread]

/-- **The level of a value is the least one to which its operands flow.** -/
theorem operandLevel_eq_ok_iff [LawfulBottom L] :
    (s.operandLevel heap operands).result = .ok level ↔ s.Joins heap operands level := by
  have hjoins : ∀ {level : L}, (s.operandLevel heap operands).result = .ok level →
      s.Joins heap operands level := by
    intro level h
    obtain ⟨hreadable, hle⟩ := joins_of_joinOperands h
    exact ⟨hreadable, fun bound => (hle bound).trans (and_iff_right (bottom_le bound))⟩
  constructor
  · exact hjoins
  · intro h
    obtain ⟨level', hlevel'⟩ := exists_joinOperands h.readable bottom
    have hsame : level' = level := eq_of_forall_le_iff fun bound => by
      rw [(hjoins hlevel').le_iff, h.le_iff]
    rw [← hsame]
    exact hlevel'

/-- Every operand flows to the level of the value. -/
theorem Joins.le [LawfulJoin L] (h : s.Joins heap operands level) (hmem : operand ∈ operands)
    {read : L} (hread : s.levelOf heap operand = .ok read) : read ≤ level :=
  (h.le_iff level).1 (le_refl level) operand hmem read hread

/-! ## §3  Operands without a level -/

/-- Where a value has no level, one of its operands has none. -/
theorem exists_unread {start : L} (h : (s.joinOperands heap start operands).result = .error e) :
    ∃ operand ∈ operands, s.levelOf heap operand = .error e := by
  induction operands generalizing start with
  | nil => cases h
  | cons operand operands ih =>
      rw [result_joinOperands_cons] at h
      cases hread : s.levelOf heap operand with
      | error e' =>
          rw [hread] at h
          cases h
          exact ⟨operand, List.mem_cons_self, hread⟩
      | ok read =>
          rw [hread] at h
          obtain ⟨later, hlater, hunread⟩ := ih h
          exact ⟨later, List.mem_cons_of_mem _ hlater, hunread⟩

/-! ## §4  The same operands named in another way -/

variable [LawfulBottom L] (h : Operand.Rearranged operands operands')
include h

theorem joins_iff_of_rearranged : s.Joins heap operands' level ↔ s.Joins heap operands level := by
  have hreadable := h.forall_mem_iff (P := fun operand => ∃ read, s.levelOf heap operand = .ok read)
    ⟨bottom, rfl⟩
  have hbelow : ∀ bound, (∀ operand ∈ operands', ∀ read, s.levelOf heap operand = .ok read →
      read ≤ bound) ↔ ∀ operand ∈ operands, ∀ read, s.levelOf heap operand = .ok read →
      read ≤ bound := by
    intro bound
    refine h.forall_mem_iff ?_
    rintro read ⟨⟩
    exact bottom_le bound
  constructor
  · intro hjoins
    exact ⟨hreadable.1 hjoins.readable, fun bound => (hjoins.le_iff bound).trans (hbelow bound)⟩
  · intro hjoins
    exact ⟨hreadable.2 hjoins.readable,
      fun bound => (hjoins.le_iff bound).trans (hbelow bound).symm⟩

/-- **The level of a value does not depend on how its operands are named.** -/
theorem operandLevel_of_rearranged (hlevel : (s.operandLevel heap operands).result = .ok level) :
    (s.operandLevel heap operands').result = .ok level :=
  operandLevel_eq_ok_iff.2 ((joins_iff_of_rearranged h).2 (operandLevel_eq_ok_iff.1 hlevel))

/-- A value without a level has none either if its operands are named in another way; what is
blamed then is still one of them. -/
theorem unread_of_rearranged (hunread : (s.operandLevel heap operands).result = .error e) :
    ∃ e', (s.operandLevel heap operands').result = .error e' ∧
      ∃ operand ∈ operands, s.levelOf heap operand = .error e' := by
  cases hresult : (s.operandLevel heap operands').result with
  | ok level =>
      have hjoins := (joins_iff_of_rearranged h).1 (operandLevel_eq_ok_iff.1 hresult)
      rw [operandLevel_eq_ok_iff.2 hjoins] at hunread
      cases hunread
  | error e' =>
      obtain ⟨operand, hmem, hblamed⟩ := exists_unread hresult
      refine ⟨e', rfl, operand, h.mem_of_mem hmem ?_, hblamed⟩
      rintro rfl
      cases hblamed

end Session

end InfoFlow
