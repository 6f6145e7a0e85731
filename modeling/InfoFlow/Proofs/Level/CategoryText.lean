import Mathlib.Data.List.Forall2
import Mathlib.Data.List.ReduceOption
import InfoFlow.Proofs.Level.Powerset
import InfoFlow.Proofs.Text.Pieces

/-!
# Sets of categories are read by their notation

A set is written between braces, with commas between its parts. `Lists` says which texts these
are and which indices they name, without a reader: white space may stand around the braces and
around every part, a part may be empty, and an index may have a plus sign and zeros in front. A
text is read exactly if it lists indices below `n` (`parse_iff_lists`), as the set of these, and
the text of a set lists its categories once each, in increasing order.
-/

namespace InfoFlow

open Text (AllBlank IsNumeral)

namespace CategorySet

variable {n : Nat}

/-! ## §1  The notation -/

/-- The part names this index, or none if there is nothing but white space. -/
inductive Part : List Char → Option Nat → Prop
  | empty {text : List Char} (blank : AllBlank text) : Part text none
  | index {before digits after : List Char} {i : Nat} (blankBefore : AllBlank before)
      (numeral : IsNumeral digits i) (blankAfter : AllBlank after) :
      Part (before ++ digits ++ after) (some i)

/-- The text lists these indices: between braces, in parts with commas between them. -/
def Lists (text : String) (indices : List Nat) : Prop :=
  ∃ before parts named after, AllBlank before ∧ AllBlank after ∧
    text.toList = before ++ ('\x7b' :: [','].intercalate parts ++ ['\x7d']) ++ after ∧
    List.Forall₂ Part parts named ∧ named.reduceOption = indices

/-! ## §2  Parts -/

section Parts

variable {piece : List Char} {named : Option Nat} {i : Nat}

theorem part_of_trim_eq_nil (h : Text.trim piece = []) : Part piece named ↔ named = none := by
  constructor
  · rintro (_ | ⟨hbefore, hnumeral, hafter⟩)
    · rfl
    · obtain ⟨-, hblank⟩ := List.forall_mem_append.1
        (List.forall_mem_append.1 (Text.trim_eq_nil.1 h)).1
      obtain ⟨c, hc⟩ := List.exists_mem_of_ne_nil _ hnumeral.ne_nil
      exact absurd (hblank c hc) (by simp [hnumeral.not_isBlank c hc])
  · rintro rfl
    exact .empty (Text.trim_eq_nil.1 h)

theorem part_of_trim_ne_nil (h : Text.trim piece ≠ []) :
    Part piece named ↔ ∃ i, Text.natural? (Text.trim piece) = some i ∧ named = some i := by
  constructor
  · rintro (hblank | ⟨hbefore, hnumeral, hafter⟩)
    · exact absurd (Text.trim_eq_nil.2 hblank) h
    · refine ⟨_, ?_, rfl⟩
      rw [Text.trim_padded hbefore hafter
        (fun c hc => hnumeral.not_isBlank c (List.mem_of_mem_head? hc))
        (fun c hc => hnumeral.not_isBlank c (List.mem_of_getLast? hc))]
      exact Text.natural?_eq_some.2 hnumeral
  · rintro ⟨i, hi, rfl⟩
    obtain ⟨before, after, hbefore, hafter, hpiece⟩ := Text.exists_padding piece
    rw [hpiece]
    exact .index hbefore (Text.natural?_eq_some.1 hi) hafter

/-- There is no comma in a part. -/
theorem Part.comma_not_mem (h : Part piece named) : ',' ∉ piece := by
  have hcomma : Text.isBlank ',' = false := by decide
  have hblank : ∀ {text : List Char}, AllBlank text → ',' ∉ text := fun htext hmem =>
    absurd (htext ',' hmem) (by simp [hcomma])
  rcases h with htext | ⟨hbefore, hnumeral, hafter⟩
  · exact hblank htext
  · simp only [List.mem_append, not_or]
    refine ⟨⟨hblank hbefore, fun hmem => ?_⟩, hblank hafter⟩
    rcases hnumeral.forall_mem ',' hmem with h | h <;> cases h

theorem comma_not_mem {pieces : List (List Char)} {all : List (Option Nat)}
    (h : List.Forall₂ Part pieces all) : ∀ piece ∈ pieces, ',' ∉ piece := by
  induction h with
  | nil => simp
  | cons hfirst _ ih => exact List.forall_mem_cons.2 ⟨hfirst.comma_not_mem, ih⟩

theorem exists_named_cons {pieces : List (List Char)}
    (hpart : ∀ other, Part piece other ↔ other = named) {P : List (Option Nat) → Prop} :
    (∃ all, List.Forall₂ Part (piece :: pieces) all ∧ P all) ↔
      ∃ rest, List.Forall₂ Part pieces rest ∧ P (named :: rest) := by
  constructor
  · rintro ⟨_, hall, hP⟩
    cases hall with
    | cons hfirst hrest =>
        obtain rfl := (hpart _).1 hfirst
        exact ⟨_, hrest, hP⟩
  · rintro ⟨rest, hrest, hP⟩
    exact ⟨named :: rest, .cons ((hpart named).2 rfl) hrest, hP⟩

/-- **The parts are added one by one** exactly if they name indices below `n`. -/
theorem foldlM_parts {pieces : List (List Char)} {a b : CategorySet n} :
    ((pieces.map Text.trim).filter (!·.isEmpty)).foldlM
        (fun set part => (Text.natural? part).bind set.with?) a = some b ↔
      ∃ all, List.Forall₂ Part pieces all ∧ (∀ i ∈ all.reduceOption, i < n) ∧
        ∀ i, b.contains i = (a.contains i || decide (i ∈ all.reduceOption)) := by
  induction pieces generalizing a with
  | nil =>
      simp only [List.map_nil, List.filter_nil, List.foldlM_nil, List.forall₂_nil_left_iff]
      constructor
      · intro h
        obtain rfl : a = b := Option.some.inj h
        exact ⟨[], rfl, by simp, by simp⟩
      · rintro ⟨_, rfl, -, hcontains⟩
        exact congrArg some (eq_of_contains fun i => by simp [hcontains])
  | cons piece pieces ih =>
      by_cases hempty : Text.trim piece = []
      · -- an empty part is passed over
        rw [List.map_cons, List.filter_cons_of_neg (by simp [hempty]), ih,
          exists_named_cons fun _ => part_of_trim_eq_nil hempty]
        rfl
      · rw [List.map_cons, List.filter_cons_of_pos (by simp [hempty]), List.foldlM_cons]
        cases hnumber : Text.natural? (Text.trim piece) with
        | none =>
            refine ⟨nofun, ?_⟩
            rintro ⟨_, hall, -⟩
            cases hall with
            | cons hfirst hrest =>
                obtain ⟨i, hi, -⟩ := (part_of_trim_ne_nil hempty).1 hfirst
                rw [hnumber] at hi
                cases hi
        | some index =>
            have hpart : ∀ other, Part piece other ↔ other = some index := by
              intro other
              simp [part_of_trim_ne_nil hempty, hnumber]
            simp only [exists_named_cons hpart, List.reduceOption_cons_of_some,
              List.forall_mem_cons, Option.bind_some]
            cases hwith : a.with? index with
            | none =>
                refine ⟨nofun, ?_⟩
                rintro ⟨_, -, ⟨hindex, -⟩, -⟩
                exact absurd (with?_eq_none.1 hwith) (Nat.not_le.2 hindex)
            | some c =>
                obtain ⟨hindex, hc⟩ := with?_eq_some.1 hwith
                rw [Option.bind_eq_bind, Option.bind_some, ih]
                simp [hindex, hc, Bool.or_assoc]

end Parts

/-! ## §3  Reading -/

variable {text : String} {indices : List Nat}

/-- What stands between the braces. -/
theorem inner?_eq_some {inner : List Char} :
    inner? text = some inner ↔ ∃ before after, AllBlank before ∧ AllBlank after ∧
      text.toList = before ++ ('\x7b' :: inner ++ ['\x7d']) ++ after := by
  simp only [inner?, Option.bind_eq_bind, Option.bind_eq_some_iff, Text.dropMark?_eq_some,
    Text.dropEndMark?_eq_some]
  constructor
  · rintro ⟨_, htrim, rfl⟩
    obtain ⟨before, after, hbefore, hafter, htext⟩ := Text.exists_padding text.toList
    rw [htrim] at htext
    exact ⟨before, after, hbefore, hafter, htext⟩
  · rintro ⟨before, after, hbefore, hafter, htext⟩
    refine ⟨_, ?_, rfl⟩
    have hopen : Text.isBlank '\x7b' = false := by decide
    have hclose : Text.isBlank '\x7d' = false := by decide
    rw [htext, Text.trim_padded hbefore hafter (by simp [hopen])]
    · rfl
    · rw [List.getLast?_concat]
      simp [hclose]

/-- What a text lists is said by its pieces. -/
theorem lists_iff : Lists text indices ↔ ∃ inner, inner? text = some inner ∧
    ∃ named, List.Forall₂ Part (Text.split ',' inner) named ∧ named.reduceOption = indices := by
  constructor
  · rintro ⟨before, parts, named, after, hbefore, hafter, htext, hnamed, hindices⟩
    refine ⟨[','].intercalate parts, inner?_eq_some.2 ⟨before, after, hbefore, hafter, htext⟩, ?_⟩
    cases hnamed with
    | nil => exact ⟨[none], .cons (.empty (by simp [AllBlank])) .nil, hindices⟩
    | cons hfirst hrest =>
        rw [Text.split_intercalate (comma_not_mem (.cons hfirst hrest)) (List.cons_ne_nil _ _)]
        exact ⟨_, .cons hfirst hrest, hindices⟩
  · rintro ⟨inner, hinner, named, hnamed, hindices⟩
    obtain ⟨before, after, hbefore, hafter, htext⟩ := inner?_eq_some.1 hinner
    refine ⟨before, Text.split ',' inner, named, after, hbefore, hafter, ?_, hnamed, hindices⟩
    rw [Text.intercalate_split]
    exact htext

theorem parse_eq_ok {set : CategorySet n} :
    NamedLevel.parse text = .ok set ↔ ∃ indices, Lists text indices ∧ (∀ i ∈ indices, i < n) ∧
      ∀ i, set.contains i = decide (i ∈ indices) := by
  have hparse : NamedLevel.parse text = .ok set ↔
      (inner? text).bind (fun inner => ofParts? (parts inner)) = some set := by
    rw [← toOption_parse]
    cases (NamedLevel.parse text : Except UnknownLevel (CategorySet n)) <;> simp [Except.toOption]
  rw [hparse, Option.bind_eq_some_iff]
  constructor
  · rintro ⟨inner, hinner, hset⟩
    obtain ⟨named, hnamed, hbelow, hcontains⟩ := foldlM_parts.1 hset
    refine ⟨_, lists_iff.2 ⟨inner, hinner, named, hnamed, rfl⟩, hbelow, fun i => ?_⟩
    rw [hcontains, contains_empty, Bool.false_or]
  · rintro ⟨indices, hlists, hbelow, hcontains⟩
    obtain ⟨inner, hinner, named, hnamed, rfl⟩ := lists_iff.1 hlists
    refine ⟨inner, hinner, foldlM_parts.2 ⟨named, hnamed, hbelow, fun i => ?_⟩⟩
    rw [hcontains, contains_empty, Bool.false_or]

theorem parse_eq_error {e : UnknownLevel} :
    (NamedLevel.parse text : Except UnknownLevel (CategorySet n)) = .error e ↔
      e = ⟨text⟩ ∧ ¬∃ indices, Lists text indices ∧ ∀ i ∈ indices, i < n := by
  constructor
  · intro h
    refine ⟨eq_of_parse_eq_error h, ?_⟩
    rintro ⟨indices, hlists, hbelow⟩
    obtain ⟨set, hset⟩ := exists_contains indices hbelow
    rw [parse_eq_ok.2 ⟨indices, hlists, hbelow, hset⟩] at h
    cases h
  · rintro ⟨rfl, hnot⟩
    cases hparse : (NamedLevel.parse text : Except UnknownLevel (CategorySet n)) with
    | error e => rw [eq_of_parse_eq_error hparse]
    | ok set =>
        obtain ⟨indices, hlists, hbelow, -⟩ := parse_eq_ok.1 hparse
        exact absurd ⟨indices, hlists, hbelow⟩ hnot

/-! ## §4  Writing -/

theorem mem_members {a : CategorySet n} {i : Nat} : i ∈ a.members ↔ a.contains i = true := by
  rw [members, List.mem_filter, List.mem_range]
  exact and_iff_right_of_imp fun h => BitVec.lt_of_getLsbD h

theorem pairwise_members (a : CategorySet n) : a.members.Pairwise (· < ·) :=
  List.pairwise_lt_range.filter a.contains

/-- The text of a set lists its members. -/
theorem lists_text (a : CategorySet n) : Lists a.text a.members := by
  refine ⟨[], a.members.map (Nat.toDigits 10), a.members.map some, [], by simp [AllBlank],
    by simp [AllBlank], ?_, ?_, by simp [List.reduceOption]⟩
  · simp [text, String.toList_intercalate, Function.comp_def]
  · rw [List.forall₂_map_left_iff, List.forall₂_map_right_iff, List.forall₂_same]
    intro i _
    have hpart : Part ([] ++ Nat.toDigits 10 i ++ []) (some i) :=
      .index (by simp [AllBlank]) (Text.isNumeral_toDigits i) (by simp [AllBlank])
    rwa [List.nil_append, List.append_nil] at hpart

/-- **Sets of categories are read by their notation.** A text is read as a set of categories
below `n` exactly if it lists indices below `n`, whatever their order, repetitions, zeros, plus
signs, empty parts and white space; the set holds these indices and no others. Any other text is
refused, and the error carries the text. The text of a set is read back as the set, and writes
its categories between braces, in strictly increasing order. -/
theorem parse_iff_lists (n : Nat) :
    (∀ text (set : CategorySet n), NamedLevel.parse text = .ok set ↔
      ∃ indices, Lists text indices ∧ (∀ i ∈ indices, i < n) ∧
        ∀ i, set.contains i = decide (i ∈ indices)) ∧
    (∀ text e, (NamedLevel.parse text : Except UnknownLevel (CategorySet n)) = .error e ↔
      e = ⟨text⟩ ∧ ¬∃ indices, Lists text indices ∧ ∀ i ∈ indices, i < n) ∧
    (∀ set : CategorySet n, NamedLevel.parse (Level.text set) = .ok set) ∧
    ∀ set : CategorySet n, ∃ members : List Nat, members.Pairwise (· < ·) ∧
      (∀ i, i ∈ members ↔ set.contains i = true) ∧
      Level.text set = "\x7b" ++ ",".intercalate (members.map toString) ++ "\x7d" := by
  refine ⟨fun _ _ => parse_eq_ok, fun _ _ => parse_eq_error, fun set => ?_, fun set => ?_⟩
  · refine parse_eq_ok.2 ⟨set.members, lists_text set, fun i hi => ?_, fun i => ?_⟩
    · exact BitVec.lt_of_getLsbD (mem_members.1 hi)
    · rw [Bool.eq_iff_iff, decide_eq_true_eq, mem_members]
  · exact ⟨set.members, pairwise_members set, fun _ => mem_members, rfl⟩

example : (NamedLevel.parse "\u2003{7,, +02,7 }\n" : Except UnknownLevel (CategorySet 8)) =
    .ok ⟨0b10000100#8⟩ := by rfl

end CategorySet

end InfoFlow
