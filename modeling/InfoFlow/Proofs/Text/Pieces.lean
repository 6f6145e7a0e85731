import Mathlib.Data.List.TakeWhile
import InfoFlow.Proofs.Text.Decimal
import InfoFlow.Text.Blank
import InfoFlow.Text.Pieces

/-!
# What trimming and cutting leave

A text is what trimming leaves of it with white space around it, and it is its pieces with the
separators between them. A numeral is one plus sign at most with decimal digits behind it.
-/

namespace InfoFlow.Text

variable {text before body after : List Char}

/-! ## §1  White space -/

/-- Nothing but white space. -/
def AllBlank (text : List Char) : Prop := ∀ c ∈ text, isBlank c = true

/-- There is but white space around what trimming leaves. -/
theorem exists_padding (text : List Char) :
    ∃ before after, AllBlank before ∧ AllBlank after ∧ text = before ++ trim text ++ after := by
  let rest := trimLeft text
  refine ⟨text.takeWhile isBlank, (rest.reverse.takeWhile isBlank).reverse,
    fun c => List.mem_takeWhile_imp, fun c hc => ?_, ?_⟩
  · exact List.mem_takeWhile_imp (List.mem_reverse.1 hc)
  · have hrest : trimRight rest ++ (rest.reverse.takeWhile isBlank).reverse = rest := by
      rw [trimRight, ← List.reverse_append, List.takeWhile_append_dropWhile, List.reverse_reverse]
    rw [List.append_assoc]
    show text = text.takeWhile isBlank ++ (trimRight rest ++ _)
    rw [hrest]
    exact List.takeWhile_append_dropWhile.symm

/-- White space goes, up to a text that neither begins nor ends with some. -/
theorem trim_padded (hbefore : AllBlank before) (hafter : AllBlank after)
    (hfirst : ∀ c ∈ body.head?, isBlank c = false)
    (hlast : ∀ c ∈ body.getLast?, isBlank c = false) :
    trim (before ++ body ++ after) = body := by
  have hright : ∀ {rest : List Char}, AllBlank rest →
      rest.dropWhile isBlank = [] := fun h => List.dropWhile_eq_nil_iff.2 h
  unfold trim trimLeft
  rw [List.append_assoc, List.dropWhile_append_of_pos hbefore]
  cases body with
  | nil =>
      rw [List.nil_append, hright hafter]
      rfl
  | cons c rest =>
      have hc : isBlank c = false := hfirst c rfl
      rw [List.cons_append, List.dropWhile_cons_of_neg (by simp [hc]), trimRight,
        ← List.cons_append, List.reverse_append,
        List.dropWhile_append_of_pos fun c hc => hafter c (List.mem_reverse.1 hc)]
      cases hreverse : (c :: rest).reverse with
      | nil => simp at hreverse
      | cons d others =>
          have hd : isBlank d = false := by
            refine hlast d ?_
            rw [← List.head?_reverse, hreverse]
            rfl
          rw [List.dropWhile_cons_of_neg (by simp [hd]), ← hreverse, List.reverse_reverse]

theorem trim_eq_nil : trim text = [] ↔ AllBlank text := by
  constructor
  · intro h
    obtain ⟨before, after, hbefore, hafter, htext⟩ := exists_padding text
    rw [h, List.append_nil] at htext
    rw [htext]
    exact List.forall_mem_append.2 ⟨hbefore, hafter⟩
  · intro h
    have hnone : trim (text ++ [] ++ []) = [] :=
      trim_padded h (by simp [AllBlank]) (by simp) (by simp)
    simpa using hnone

/-! ## §2  Marks and pieces -/

theorem dropMark?_eq_some {mark : Char} {rest : List Char} :
    dropMark? mark text = some rest ↔ text = mark :: rest := by
  cases text with
  | nil => simp [dropMark?]
  | cons c others =>
      by_cases hc : c = mark
      · simp [dropMark?, hc]
      · simp [dropMark?, hc]

theorem dropEndMark?_eq_some {mark : Char} {rest : List Char} :
    dropEndMark? mark text = some rest ↔ text = rest ++ [mark] := by
  rw [dropEndMark?, Option.map_eq_some_iff]
  constructor
  · rintro ⟨others, hothers, rfl⟩
    rw [dropMark?_eq_some] at hothers
    rw [← List.reverse_reverse text, hothers, List.reverse_cons]
  · rintro rfl
    exact ⟨rest.reverse, dropMark?_eq_some.2 (by simp), List.reverse_reverse rest⟩

/-- Cutting is that of the library. -/
theorem split_eq_splitOn (separator : Char) (text : List Char) :
    split separator text = text.splitOn separator := by
  induction text with
  | nil => rfl
  | cons c rest ih =>
      rw [split, ih, List.splitOn, List.splitOn, List.splitOnP_cons_eq_if_modifyHead]
      by_cases hc : c = separator
      · simp [hc]
      · rw [if_neg hc, if_neg (by simpa using hc)]
        cases hpieces : rest.splitOnP (· == separator) with
        | nil => exact absurd hpieces (List.splitOnP_ne_nil _ _)
        | cons piece pieces => rfl

/-- The pieces of a text are those between its separators. -/
theorem split_intercalate {separator : Char} {pieces : List (List Char)}
    (h : ∀ piece ∈ pieces, separator ∉ piece) (hne : pieces ≠ []) :
    split separator ([separator].intercalate pieces) = pieces := by
  rw [split_eq_splitOn, List.splitOn_intercalate separator h hne]

theorem intercalate_split (separator : Char) (text : List Char) :
    [separator].intercalate (split separator text) = text := by
  rw [split_eq_splitOn, List.intercalate_splitOn]

/-! ## §3  Numerals -/

/-- The text is `n` in decimal digits, perhaps with zeros in front and after a plus sign. -/
inductive IsNumeral : List Char → Nat → Prop
  | digits {digits : List Char} (nonempty : digits ≠ [])
      (decimal : ∀ c ∈ digits, c.isDigit = true) :
      IsNumeral digits (Nat.ofDigitChars 10 digits 0)
  | plus {digits : List Char} (nonempty : digits ≠ [])
      (decimal : ∀ c ∈ digits, c.isDigit = true) :
      IsNumeral ('+' :: digits) (Nat.ofDigitChars 10 digits 0)

/-- A numeral consists of digits, and perhaps a plus sign. -/
theorem IsNumeral.forall_mem {n : Nat} (h : IsNumeral text n) :
    ∀ c ∈ text, c = '+' ∨ c.isDigit = true := by
  rcases h with ⟨-, hdigits⟩ | ⟨-, hdigits⟩
  · exact fun c hc => Or.inr (hdigits c hc)
  · exact fun c hc => (List.mem_cons.1 hc).imp_right (hdigits c)

theorem IsNumeral.ne_nil {n : Nat} (h : IsNumeral text n) : text ≠ [] := by
  rcases h with ⟨hne, -⟩ | -
  · exact hne
  · exact List.cons_ne_nil _ _

theorem not_isBlank_of_isDigit {c : Char} (hc : c.isDigit = true) : isBlank c = false := by
  obtain ⟨hlow, hhigh⟩ := toNat_of_isDigit hc
  have hzero : '0'.toNat = 48 := rfl
  have hnine : '9'.toNat = 57 := rfl
  refine Bool.eq_false_iff.2 fun hblank => ?_
  simp [isBlank, blankRanges] at hblank
  omega

theorem IsNumeral.not_isBlank {n : Nat} (h : IsNumeral text n) :
    ∀ c ∈ text, isBlank c = false := by
  intro c hc
  rcases h.forall_mem c hc with rfl | hdigit
  · decide
  · exact not_isBlank_of_isDigit hdigit

/-- The digits of a number are a numeral of it. -/
theorem isNumeral_toDigits (n : Nat) : IsNumeral (Nat.toDigits 10 n) n := by
  have hnumeral := IsNumeral.digits Nat.toDigits_ne_nil (isDecimal_toDigits n).digits
  rwa [Nat.ofDigitChars_ten_toDigits] at hnumeral

theorem digits?_eq_some {n : Nat} :
    digits? text = some n ↔
      text ≠ [] ∧ (∀ c ∈ text, c.isDigit = true) ∧ Nat.ofDigitChars 10 text 0 = n := by
  unfold digits?
  split
  · rename_i h
    simp only [reduceCtorEq, false_iff]
    rintro ⟨hne, hdigits, -⟩
    simp [hne, List.all_eq_true.2 hdigits] at h
  · rename_i h
    simp only [Bool.or_eq_true, List.isEmpty_iff, Bool.not_eq_true', not_or,
      Bool.not_eq_false, List.all_eq_true] at h
    rw [Option.some.injEq]
    exact ⟨fun hvalue => ⟨h.1, h.2, hvalue⟩, fun hvalue => hvalue.2.2⟩

theorem natural?_eq_some {n : Nat} : natural? text = some n ↔ IsNumeral text n := by
  constructor
  · intro h
    unfold natural? at h
    split at h
    · obtain ⟨hne, hdigits, rfl⟩ := digits?_eq_some.1 h
      exact .plus hne hdigits
    · obtain ⟨hne, hdigits, rfl⟩ := digits?_eq_some.1 h
      exact .digits hne hdigits
  · rintro (⟨hne, hdigits⟩ | ⟨hne, hdigits⟩)
    · unfold natural?
      split
      · exact absurd (hdigits '+' List.mem_cons_self) (by decide)
      · exact digits?_eq_some.2 ⟨hne, hdigits, rfl⟩
    · exact digits?_eq_some.2 ⟨hne, hdigits, rfl⟩

end InfoFlow.Text
