import Mathlib.Data.List.Chain
import Mathlib.Tactic.SplitIfs
import InfoFlow.Json.Lexer

/-!
# Tokens are read as they are written

A text is cut into tokens one character after the other. Words and numbers end with the
first character that cannot continue them, so that what has been read of them is a token
only if a delimiter follows, or nothing at all (`Holds`). Every token is read back from
its own text (`holds_text`), and so are tokens one after the other, provided that a mark
stands after each that does not end by itself (`Apart`). Blanks between them, or none, make
no difference (`Spaced.read?`).
-/

namespace InfoFlow

/-! ## §1  Numbers -/

namespace Numeral

/-- What has been read of a literal when its whole part is `n`. -/
def ofWhole (negative : Bool) (n : Nat) : Numeral :=
  ⟨if n = 0 then .zero else .whole, negative, n, 0, false, 0⟩

theorem next?_ofWhole (negative : Bool) {n d : Nat} (hn : n ≠ 0) (hd : d < 10) :
    (ofWhole negative n).next? (Nat.digitChar d) = some (ofWhole negative (10 * n + d)) := by
  have hvalue : digitValue (Nat.digitChar d) = d := Nat.toNat_digitChar_sub_48_of_lt_ten hd
  have hdigit : (Nat.digitChar d).isDigit = true := Nat.isDigit_digitChar.trans (decide_eq_true hd)
  have hsum : 10 * n + d ≠ 0 := by omega
  unfold next? ofWhole
  rw [if_neg hn, if_neg hsum]
  simp [hdigit, hvalue]

/-- The stages in which the next digit belongs to the exponent. -/
def TakesExponent (stage : NumeralStage) : Prop :=
  stage = .letter ∨ stage = .exponentSign ∨ stage = .exponent

theorem next?_exponent {part : Numeral} (hstage : TakesExponent part.stage) {c : Char}
    (hc : c.isDigit = true) :
    part.next? c =
      some { part with stage := .exponent, exponent := 10 * part.exponent + digitValue c } := by
  have hplus : c ≠ '+' := by rintro rfl; cases hc
  have hminus : c ≠ '-' := by rintro rfl; cases hc
  unfold next?
  rcases hstage with hstage | hstage | hstage
  · simp [hstage, addExponentDigit, hplus, hminus, hc]
  · simp [hstage, addExponentDigit, hc]
  · simp [hstage, addExponentDigit, hc]

end Numeral

namespace Lexer

/-! ## §2  What ends a token -/

/-- The characters that end a word or a number: blanks, and the tokens of one character. -/
def delimiters : List Char := [' ', '\t', '\n', '\r', '\x7b', '\x7d', '[', ']', ':', ',']

/-- The lexer has read these tokens, last one first: a text that ends here has them, and
a delimiter is read as if they were complete. -/
structure Holds (lexer : Lexer) (tokens : List Token) : Prop where
  finish : lexer.finish? = some tokens.reverse
  next : ∀ c ∈ delimiters, lexer.next? c = begin? tokens c

theorem holds_idle (tokens : List Token) : Holds ⟨.idle, tokens⟩ tokens := ⟨rfl, fun _ _ => rfl⟩

theorem holds_word {letters : List Char} {token : Token} (hword : wordToken? letters = some token)
    (tokens : List Token) : Holds ⟨.word letters, tokens⟩ (token :: tokens) := by
  refine ⟨by simp [finish?, hword], fun c hc => ?_⟩
  have hlower : ∀ c ∈ delimiters, c.isLower = false := by simp [delimiters]
  simp [next?, hlower c hc, hword]

/-- The stages in which a literal may end. -/
def MayEnd (stage : NumeralStage) : Prop := stage = .zero ∨ stage = .whole ∨ stage = .exponent

theorem holds_number {part : Numeral} {number : Number} (hstage : MayEnd part.stage)
    (hnumber : part.number? = some number) (tokens : List Token) :
    Holds ⟨.number part, tokens⟩ (.number number :: tokens) := by
  refine ⟨by simp [finish?, hnumber], fun c hc => ?_⟩
  have hends : ∀ c ∈ delimiters, c.isDigit = false ∧ c ≠ '.' ∧ c ≠ 'e' ∧ c ≠ 'E' := by
    simp [delimiters]
  obtain ⟨hdigit, hpoint, hsmall, hcapital⟩ := hends c hc
  have hnone : part.next? c = none := by
    unfold Numeral.next?
    rcases hstage with hstage | hstage | hstage
    · simp [hstage, Numeral.afterWhole, hpoint, hsmall, hcapital]
    · simp [hstage, Numeral.afterWhole, hdigit, hpoint, hsmall, hcapital]
    · simp [hstage, Numeral.addExponentDigit, hdigit]
  simp [next?, hnone, hnumber]

/-! ## §3  Numbers are read back -/

theorem begin?_digitChar (tokens : List Token) {d : Nat} (hd : d < 10) :
    begin? tokens (Nat.digitChar d) = some ⟨.number (.ofWhole false d), tokens⟩ := by
  have hstart : ∀ d < 10, isBlank (Nat.digitChar d) = false ∧ markToken? (Nat.digitChar d) = none ∧
      Nat.digitChar d ≠ '"' ∧ (Nat.digitChar d).isLower = false ∧
      Numeral.start? (Nat.digitChar d) = some (.ofWhole false d) := by decide
  obtain ⟨hblank, hmark, hquote, hlower, hnumeral⟩ := hstart d hd
  simp [begin?, hblank, hmark, hquote, hlower, hnumeral]

/-- The digits of `n` are read as the whole part `n`, wherever one digit is. -/
theorem foldlM_wholeDigits (lexer : Lexer) {negative : Bool} {tokens : List Token}
    (hfirst : ∀ d < 10, lexer.next? (Nat.digitChar d) =
      some ⟨.number (.ofWhole negative d), tokens⟩) (n : Nat) :
    (decimalDigits n).foldlM next? lexer = some ⟨.number (.ofWhole negative n), tokens⟩ := by
  induction n using Nat.strongRecOn with
  | ind n ih =>
      unfold decimalDigits at ih ⊢
      rw [Nat.toDigits_eq_if (by decide)]
      split
      · rename_i hsmall
        simp [hfirst n hsmall]
      · have hmore : n / 10 ≠ 0 := by omega
        have hdigit : n % 10 < 10 := Nat.mod_lt n (by decide)
        have hvalue : 10 * (n / 10) + n % 10 = n := Nat.div_add_mod n 10
        have hnext := Numeral.next?_ofWhole negative hmore hdigit
        rw [hvalue] at hnext
        rw [List.foldlM_append, ih (n / 10) (by omega)]
        simp [next?, hnext]

/-- Digits are read into the exponent. -/
theorem foldlM_exponentDigits (part : Numeral) (hstage : Numeral.TakesExponent part.stage)
    (digits : List Char) (hne : digits ≠ []) (hdigits : ∀ c ∈ digits, c.isDigit = true)
    (tokens : List Token) :
    digits.foldlM next? ⟨.number part, tokens⟩ = some ⟨.number
      { part with stage := .exponent, exponent := Nat.ofDigitChars 10 digits part.exponent },
      tokens⟩ := by
  induction digits generalizing part with
  | nil => exact absurd rfl hne
  | cons c digits ih =>
      have hnext := Numeral.next?_exponent hstage (hdigits c List.mem_cons_self)
      have hvalue : Nat.ofDigitChars 10 (c :: digits) part.exponent =
          Nat.ofDigitChars 10 digits (10 * part.exponent + digitValue c) := Nat.ofDigitChars_cons
      rw [List.foldlM_cons, hvalue]
      simp only [next?, hnext, Option.bind_eq_bind, Option.bind_some]
      cases digits with
      | nil => rfl
      | cons d digits =>
          exact ih _ (Or.inr (Or.inr rfl)) (List.cons_ne_nil d digits)
            fun c hc => hdigits c (List.mem_cons_of_mem _ hc)

/-- A sign and the digits of `n` are read as the whole part `n`. -/
theorem foldlM_signedDigits (negative : Bool) (n : Nat) (tokens : List Token) :
    (signText negative ++ decimalDigits n).foldlM next? ⟨.idle, tokens⟩ =
      some ⟨.number (.ofWhole negative n), tokens⟩ := by
  cases negative with
  | false =>
      exact foldlM_wholeDigits ⟨.idle, tokens⟩ (fun d hd => begin?_digitChar tokens hd) n
  | true =>
      have hsign : ∀ d < 10, Numeral.next? ⟨.sign, true, 0, 0, false, 0⟩ (Nat.digitChar d) =
          some (.ofWhole true d) := by decide
      refine foldlM_wholeDigits ⟨.number ⟨.sign, true, 0, 0, false, 0⟩, tokens⟩ ?_ n
      intro d hd
      simp [next?, hsign d hd]

theorem mayEnd_ofWhole (negative : Bool) (n : Nat) :
    MayEnd (Numeral.ofWhole negative n).stage := by
  by_cases hn : n = 0
  · exact Or.inl (if_pos hn)
  · exact Or.inr (Or.inl (if_neg hn))

theorem number?_ofWhole (negative : Bool) (n : Nat) :
    (Numeral.ofWhole negative n).number? = some (.integer negative n) := by
  by_cases hn : n = 0 <;> simp [Numeral.number?, Numeral.ofWhole, hn]

/-- The letter of the exponent may follow every whole part. -/
theorem next?_letter (negative : Bool) (n : Nat) (tokens : List Token) :
    next? ⟨.number (.ofWhole negative n), tokens⟩ 'e' =
      some ⟨.number { Numeral.ofWhole negative n with stage := .letter }, tokens⟩ := by
  by_cases hn : n = 0 <;>
    simp [next?, Numeral.next?, Numeral.ofWhole, Numeral.afterWhole, hn]

/-- A sign after the letter is that of the exponent. -/
theorem foldlM_exponent (negative negativeExponent : Bool) (coefficient exponent : Nat)
    (tokens : List Token) :
    (signText negativeExponent ++ decimalDigits exponent).foldlM next?
        ⟨.number ⟨.letter, negative, coefficient, 0, false, 0⟩, tokens⟩ =
      some ⟨.number ⟨.exponent, negative, coefficient, 0, negativeExponent, exponent⟩, tokens⟩ := by
  have hdigits : ∀ c ∈ decimalDigits exponent, c.isDigit = true :=
    fun c hc => Nat.isDigit_of_mem_toDigits (by decide) (by decide) hc
  have hvalue : Nat.ofDigitChars 10 (decimalDigits exponent) 0 = exponent :=
    Nat.ofDigitChars_ten_toDigits
  cases negativeExponent with
  | false =>
      have hread := foldlM_exponentDigits
        ⟨.letter, negative, coefficient, 0, false, 0⟩ (Or.inl rfl)
        (decimalDigits exponent) Nat.toDigits_ne_nil hdigits tokens
      simp only [hvalue] at hread
      exact hread
  | true =>
      have hread := foldlM_exponentDigits
        ⟨.exponentSign, negative, coefficient, 0, true, 0⟩ (Or.inr (Or.inl rfl))
        (decimalDigits exponent) Nat.toDigits_ne_nil hdigits tokens
      simp only [hvalue] at hread
      exact hread

/-- A number is read back. -/
theorem holds_numberText (number : Number) (tokens : List Token) :
    ∃ lexer, number.text.foldlM next? ⟨.idle, tokens⟩ = some lexer ∧
      Holds lexer (.number number :: tokens) := by
  cases number with
  | integer negative magnitude =>
      exact ⟨_, foldlM_signedDigits negative magnitude tokens,
        holds_number (mayEnd_ofWhole negative magnitude) (number?_ofWhole negative magnitude)
          tokens⟩
  | decimal negative coefficient scale =>
      have hscale : (if decide (scale < 0) = true then -(scale.natAbs : Int) else scale.natAbs) =
          scale := by
        by_cases hneg : scale < 0
        · rw [if_pos (decide_eq_true hneg)]
          omega
        · rw [if_neg (by simpa using hneg)]
          omega
      refine ⟨⟨.number ⟨.exponent, negative, coefficient, 0, decide (scale < 0), scale.natAbs⟩,
        tokens⟩, ?_, ?_⟩
      · simp only [Number.text]
        rw [List.append_assoc, List.append_assoc, List.foldlM_append, foldlM_signedDigits]
        simp only [List.singleton_append, List.foldlM_cons, Option.bind_eq_bind, Option.bind_some,
          next?_letter]
        exact foldlM_exponent negative (decide (scale < 0)) coefficient scale.natAbs tokens
      · refine holds_number (Or.inr (Or.inr rfl)) ?_ tokens
        simp only [Numeral.number?, Numeral.scale, Int.natCast_zero, Int.sub_zero, hscale]

/-! ## §4  Strings are read back -/

theorem hexDigit?_digitChar : ∀ d < 16, hexDigit? (Nat.digitChar d) = some d := by decide

/-- A character with a code of two hexadecimal digits is read from its escape. -/
theorem foldlM_hexText (part : QuotedPart) {n : Nat} (hn : n < 256) (tokens : List Token) :
    (Quoted.hexText n).foldlM next? ⟨.unit part 4 0, tokens⟩ =
      some ⟨.string (part.push (.ofNat n)), tokens⟩ := by
  have hdigit : ∀ k, hexDigit? (Nat.digitChar (k % 16)) = some (k % 16) :=
    fun k => hexDigit?_digitChar (k % 16) (Nat.mod_lt k (by decide))
  have hvalue : 16 * (16 * (16 * (n / 4096 % 16) + n / 256 % 16) + n / 16 % 16) + n % 16 = n := by
    omega
  have hplain : part.pushUnit n = part.push (.ofNat n) := by
    have hhigh : ¬(0xD800 ≤ n ∧ n < 0xDC00) := by omega
    have hlow : ¬(0xDC00 ≤ n ∧ n < 0xE000) := by omega
    rw [QuotedPart.pushUnit, if_neg hhigh, if_neg hlow]
  simp [Quoted.hexText, next?, hdigit, hvalue, hplain]

/-- A character is read back from the way in which it is written in a string. -/
theorem foldlM_charText (part : QuotedPart) (c : Char) (tokens : List Token) :
    (Quoted.charText c).foldlM next? ⟨.string part, tokens⟩ =
      some ⟨.string (part.push c), tokens⟩ := by
  unfold Quoted.charText
  split_ifs with hquote hslash hback hfeed hline hreturn htab hcontrol
  · subst hquote; rfl
  · subst hslash; rfl
  · subst hback; rfl
  · subst hfeed; rfl
  · subst hline; rfl
  · subst hreturn; rfl
  · subst htab; rfl
  · have hread := foldlM_hexText part (show c.toNat < 256 by omega) tokens
    rw [Char.ofNat_toNat] at hread
    exact hread
  · simp [next?, hquote, hslash, hcontrol]

theorem foldlM_contentText (content done : List Char) (tokens : List Token) :
    (content.flatMap Quoted.charText).foldlM next? ⟨.string ⟨done, none, true⟩, tokens⟩ =
      some ⟨.string ⟨content.reverse ++ done, none, true⟩, tokens⟩ := by
  induction content generalizing done with
  | nil => rfl
  | cons c content ih =>
      rw [List.flatMap_cons, List.foldlM_append, foldlM_charText]
      have hpush : QuotedPart.push ⟨done, none, true⟩ c = ⟨c :: done, none, true⟩ := rfl
      simp only [Option.bind_eq_bind, Option.bind_some, hpush, ih, List.reverse_cons,
        List.append_assoc, List.singleton_append]

/-- A string literal is read back, and ends by itself. -/
theorem foldlM_quotedText (content : String) (tokens : List Token) :
    (Quoted.text content).foldlM next? ⟨.idle, tokens⟩ =
      some ⟨.idle, .string (some content) :: tokens⟩ := by
  have hopen : next? ⟨.idle, tokens⟩ '"' = some ⟨.string ⟨[], none, true⟩, tokens⟩ := rfl
  unfold Quoted.text
  rw [List.cons_append, List.foldlM_cons, hopen, Option.bind_eq_bind, Option.bind_some,
    List.foldlM_append, foldlM_contentText]
  simp [next?, QuotedPart.text?]

/-! ## §5  Tokens are read back -/

/-- Tokens that end by themselves: those of one character, and strings. -/
def EndsItself : Token → Prop
  | .null => False
  | .bool _ => False
  | .number _ => False
  | _ => True

/-- Tokens of one character. -/
def IsMark : Token → Prop
  | .string _ => False
  | token => EndsItself token

theorem foldlM_text_of_endsItself {token : Token} (h : EndsItself token) (tokens : List Token) :
    token.text.foldlM next? ⟨.idle, tokens⟩ = some ⟨.idle, token :: tokens⟩ := by
  cases token with
  | string text =>
      cases text with
      | none => rfl
      | some content => exact foldlM_quotedText content tokens
  | null => exact h.elim
  | bool value => exact h.elim
  | number value => exact h.elim
  | _ => rfl

theorem exists_delimiter_of_isMark {token : Token} (h : IsMark token) :
    ∃ c ∈ delimiters, token.text = [c] := by
  cases token with
  | openObject => exact ⟨'\x7b', by decide, rfl⟩
  | closeObject => exact ⟨'\x7d', by decide, rfl⟩
  | openArray => exact ⟨'[', by decide, rfl⟩
  | closeArray => exact ⟨']', by decide, rfl⟩
  | colon => exact ⟨':', by decide, rfl⟩
  | comma => exact ⟨',', by decide, rfl⟩
  | _ => exact h.elim

/-- **Every token is read back from its text.** -/
theorem holds_text (token : Token) (tokens : List Token) :
    ∃ lexer, token.text.foldlM next? ⟨.idle, tokens⟩ = some lexer ∧
      Holds lexer (token :: tokens) := by
  cases token with
  | null => exact ⟨⟨.word ['l', 'l', 'u', 'n'], tokens⟩, rfl, holds_word rfl tokens⟩
  | bool value =>
      cases value with
      | true => exact ⟨⟨.word ['e', 'u', 'r', 't'], tokens⟩, rfl, holds_word rfl tokens⟩
      | false => exact ⟨⟨.word ['e', 's', 'l', 'a', 'f'], tokens⟩, rfl, holds_word rfl tokens⟩
  | number value => exact holds_numberText value tokens
  | _ => exact ⟨_, foldlM_text_of_endsItself (by trivial) tokens, holds_idle _⟩

/-! ## §6  Tokens one after the other -/

/-- Each of these tokens ends by itself, or has a mark after it. -/
def Apart (tokens : List Token) : Prop :=
  tokens.IsChain fun token next => EndsItself token ∨ IsMark next

theorem apart_nil : Apart [] := .nil

theorem apart_token (token : Token) : Apart [token] := .singleton token

theorem Apart.cons {token : Token} {tokens : List Token} (h : Apart tokens)
    (hends : EndsItself token) : Apart (token :: tokens) :=
  List.IsChain.cons h fun _ _ => Or.inl hends

/-- A mark ends whatever stands before it. -/
theorem Apart.append {tokens rest : List Token} (h : Apart tokens) (hrest : Apart rest)
    (hmark : ∀ token ∈ rest.head?, IsMark token) : Apart (tokens ++ rest) :=
  List.IsChain.append h hrest fun _ _ next hnext => Or.inr (hmark next hnext)

/-- A text that consists of these tokens one after the other, with blanks before, between and
after them or without. -/
inductive Spaced : List Token → List Char → Prop
  | nil : Spaced [] []
  | blank {c : Char} {tokens : List Token} {text : List Char} (blank : isBlank c = true)
      (rest : Spaced tokens text) : Spaced tokens (c :: text)
  | token {tokens : List Token} {text : List Char} (token : Token) (rest : Spaced tokens text) :
      Spaced (token :: tokens) (token.text ++ text)

theorem mem_delimiters_of_isBlank {c : Char} (h : isBlank c = true) : c ∈ delimiters := by
  have hblank : ((c = ' ' ∨ c = '\t') ∨ c = '\n') ∨ c = '\r' := by simpa [isBlank] using h
  rcases hblank with ((rfl | rfl) | rfl) | rfl <;> decide

/-- A mark is read as if the tokens before it were complete, and every token is where they are. -/
theorem Holds.exists_text {lexer : Lexer} {before : List Token} (h : Holds lexer before)
    {token : Token} (hbegins : lexer = ⟨.idle, before⟩ ∨ IsMark token) :
    ∃ lexer', token.text.foldlM next? lexer = some lexer' ∧ Holds lexer' (token :: before) ∧
      (EndsItself token → lexer' = ⟨.idle, token :: before⟩) := by
  have hsame : token.text.foldlM next? lexer = token.text.foldlM next? ⟨.idle, before⟩ := by
    rcases hbegins with rfl | hmark
    · rfl
    · obtain ⟨c, hc, htext⟩ := exists_delimiter_of_isMark hmark
      have hidle : next? ⟨.idle, before⟩ c = begin? before c := rfl
      rw [htext, List.foldlM_cons, List.foldlM_cons, h.next c hc, hidle]
  rw [hsame]
  by_cases hends : EndsItself token
  · exact ⟨_, foldlM_text_of_endsItself hends before, holds_idle _, fun _ => rfl⟩
  · obtain ⟨lexer', hread, hholds⟩ := holds_text token before
    exact ⟨lexer', hread, hholds, fun h => absurd h hends⟩

/-- **Tokens that are apart are read back**, however they are spaced. -/
theorem Spaced.foldlM {tokens : List Token} {text : List Char} (h : Spaced tokens text)
    (hapart : Apart tokens) {lexer : Lexer} {before : List Token} (hholds : Holds lexer before)
    (hbegins : lexer = ⟨.idle, before⟩ ∨ ∀ token ∈ tokens.head?, IsMark token) :
    ∃ lexer', text.foldlM next? lexer = some lexer' ∧ Holds lexer' (tokens.reverse ++ before) := by
  induction h generalizing lexer before with
  | nil => exact ⟨lexer, rfl, hholds⟩
  | @blank c tokens text blank rest ih =>
      have hnext : lexer.next? c = some ⟨.idle, before⟩ := by
        rw [hholds.next c (mem_delimiters_of_isBlank blank), begin?, if_pos blank]
      obtain ⟨lexer', hread, hafter⟩ := ih hapart (holds_idle before) (Or.inl rfl)
      refine ⟨lexer', ?_, hafter⟩
      rw [List.foldlM_cons, hnext]
      exact hread
  | @token tokens text token rest ih =>
      obtain ⟨hfollows, hrest⟩ := List.isChain_cons.1 hapart
      obtain ⟨between, htoken, hbetween, hidle⟩ :=
        hholds.exists_text (hbegins.imp_right fun hmark => hmark token rfl)
      have hgoes : between = ⟨.idle, token :: before⟩ ∨ ∀ next ∈ tokens.head?, IsMark next := by
        by_cases hends : EndsItself token
        · exact Or.inl (hidle hends)
        · exact Or.inr fun next hnext => (hfollows next hnext).resolve_left hends
      obtain ⟨lexer', hread, hafter⟩ := ih hrest hbetween hgoes
      refine ⟨lexer', ?_, ?_⟩
      · rw [List.foldlM_append, htoken]
        exact hread
      · rw [List.reverse_cons, List.append_assoc]
        exact hafter

theorem Spaced.read? {tokens : List Token} {text : List Char} (h : Spaced tokens text)
    (hapart : Apart tokens) : Token.read? text = some tokens := by
  obtain ⟨lexer, hread, hholds⟩ := h.foldlM hapart (holds_idle []) (Or.inl rfl)
  unfold Token.read? start
  rw [hread]
  simpa using hholds.finish

theorem spaced_flatMap (tokens : List Token) : Spaced tokens (tokens.flatMap Token.text) := by
  induction tokens with
  | nil => exact .nil
  | cons token tokens ih => exact .token token ih

end Lexer

end InfoFlow
