import Mathlib.Data.List.Induction

/-!
# Decimal texts

Every number has one text in decimal digits with no zero in front, and a text of digits with
no zero in front is that of its value.
-/

namespace InfoFlow

/-- The text writes `n` in decimal digits, with no zero in front. -/
structure IsDecimal (text : List Char) (n : Nat) : Prop where
  digits : ∀ c ∈ text, c.isDigit = true
  value : Nat.ofDigitChars 10 text 0 = n
  canonical : text = ['0'] ∨ text ≠ [] ∧ text.head? ≠ some '0'

/-- No zero stands in front of the digits of another number. -/
theorem head?_toDigits {n : Nat} (hn : n ≠ 0) : (Nat.toDigits 10 n).head? ≠ some '0' := by
  induction n using Nat.strongRecOn with
  | ind n ih =>
      rw [Nat.toDigits_eq_if (by decide)]
      split
      · simpa using hn
      · have hleading := ih (n / 10) (by omega) (by omega)
        cases hdigits : Nat.toDigits 10 (n / 10) with
        | nil => exact absurd hdigits Nat.toDigits_ne_nil
        | cons first rest =>
            rw [hdigits] at hleading
            exact hleading

theorem isDecimal_toDigits (n : Nat) : IsDecimal (Nat.toDigits 10 n) n where
  digits c hc := Nat.isDigit_of_mem_toDigits (by decide) (by decide) hc
  value := Nat.ofDigitChars_ten_toDigits
  canonical := by
    by_cases hn : n = 0
    · subst hn
      exact Or.inl rfl
    · exact Or.inr ⟨Nat.toDigits_ne_nil, head?_toDigits hn⟩

theorem toNat_of_isDigit {c : Char} (hc : c.isDigit = true) :
    '0'.toNat ≤ c.toNat ∧ c.toNat ≤ '9'.toNat := by
  simpa [Char.isDigit, UInt32.le_iff_toNat_le] using hc

/-- A digit is what its value is written with. -/
theorem toDigits_of_isDigit {c : Char} (hc : c.isDigit = true) :
    c.toNat - '0'.toNat < 10 ∧ Nat.toDigits 10 (c.toNat - '0'.toNat) = [c] := by
  obtain ⟨hlow, hhigh⟩ := toNat_of_isDigit hc
  have hsmall : c.toNat - '0'.toNat < 10 := by
    have hnine : '9'.toNat = '0'.toNat + 9 := rfl
    omega
  refine ⟨hsmall, ?_⟩
  rw [Nat.toDigits_of_lt_base hsmall, List.singleton_inj]
  apply Char.toNat_inj.1
  rw [Nat.toNat_digitChar_of_lt_ten hsmall]
  exact Nat.add_sub_of_le hlow

/-- Digits that do not begin with a zero are those of their value. -/
theorem toDigits_ofDigitChars {text : List Char} (hdigits : ∀ c ∈ text, c.isDigit = true)
    (hne : text ≠ []) (hhead : text.head? ≠ some '0') :
    0 < Nat.ofDigitChars 10 text 0 ∧ Nat.toDigits 10 (Nat.ofDigitChars 10 text 0) = text := by
  induction text using List.reverseRecOn with
  | nil => exact absurd rfl hne
  | append_singleton text c ih =>
      obtain ⟨hsmall, hc⟩ := toDigits_of_isDigit (hdigits c (by simp))
      have hvalue : Nat.ofDigitChars 10 (text ++ [c]) 0 =
          10 * Nat.ofDigitChars 10 text 0 + (c.toNat - '0'.toNat) := by
        rw [Nat.ofDigitChars_append, Nat.ofDigitChars_cons, Nat.ofDigitChars_nil]
      rw [hvalue]
      cases text with
      | nil =>
          have hnonzero : c.toNat - '0'.toNat ≠ 0 := by
            intro hzero
            rw [hzero, Nat.toDigits_zero, List.singleton_inj] at hc
            exact hhead (congrArg some hc.symm)
          rw [Nat.ofDigitChars_nil, Nat.mul_zero, Nat.zero_add]
          exact ⟨Nat.pos_of_ne_zero hnonzero, hc⟩
      | cons first rest =>
          obtain ⟨hpositive, hrest⟩ := ih (fun d hd => hdigits d (List.mem_append_left [c] hd))
            (List.cons_ne_nil first rest) hhead
          refine ⟨by omega, ?_⟩
          rw [← Nat.toDigits_append_toDigits (by decide) hpositive hsmall, hrest, hc]

/-- **There is one decimal text of a number.** -/
theorem isDecimal_iff {text : List Char} {n : Nat} :
    IsDecimal text n ↔ text = Nat.toDigits 10 n := by
  constructor
  · rintro ⟨hdigits, rfl, rfl | ⟨hne, hhead⟩⟩
    · rfl
    · exact (toDigits_ofDigitChars hdigits hne hhead).2.symm
  · rintro rfl
    exact isDecimal_toDigits n

end InfoFlow
