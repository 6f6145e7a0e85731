import Mathlib.Data.List.Basic
import InfoFlow.Proofs.Entries
import InfoFlow.Proofs.Text.Decimal
import InfoFlow.Toml.Reader

/-!
# Plain lines of TOML are read

A bare key, a truth value, a whole number and a text without escapes end where a character
follows that cannot belong to them, and are read up to there whatever comes behind. From them
come the two lines of a plain document, an entry `key = value` and the header of a table, and
from the lines the table that the document writes: the entries before the first header, then a
table of the entries below it.
-/

namespace InfoFlow

namespace Toml

variable {run : List Char} {c : Char} {rest : List Char}

/-! ## §1  Runs of characters -/

section Runs

variable {p : Char → Bool}

theorem takeWhile_run (hrun : ∀ d ∈ run, p d = true) (hc : p c = false) :
    (run ++ c :: rest).takeWhile p = run := by
  rw [List.takeWhile_append_of_pos hrun, List.takeWhile_cons_of_neg (by simp [hc]),
    List.append_nil]

theorem dropWhile_run (hrun : ∀ d ∈ run, p d = true) (hc : p c = false) :
    (run ++ c :: rest).dropWhile p = c :: rest := by
  rw [List.dropWhile_append_of_pos hrun, List.dropWhile_cons_of_neg (by simp [hc])]

theorem ne_of_belongs {d : Char} (hc : p c = true) (hd : p d = false) : c ≠ d := by
  rintro rfl
  rw [hc] at hd
  contradiction

end Runs

/-! ## §2  Keys -/

/-- A key that is written without quotation marks. -/
structure IsBareKey (key : String) : Prop where
  nonempty : key.toList ≠ []
  keyChars : ∀ c ∈ key.toList, isKeyChar c = true

theorem skipBlanks_of_not_isBlank (hc : isBlank c = false) : skipBlanks (c :: rest) = c :: rest :=
  List.dropWhile_cons_of_neg (by simp [hc])

theorem not_isBlank_of_isKeyChar (hc : isKeyChar c = true) : isBlank c = false := by
  refine Bool.eq_false_iff.2 fun hblank => ?_
  obtain rfl | rfl : c = ' ' ∨ c = '\t' := by simpa [isBlank] using hblank
  · exact absurd hc (by decide)
  · exact absurd hc (by decide)

theorem isKeyChar_of_isDigit (hc : c.isDigit = true) : isKeyChar c = true := by
  simp [isKeyChar, Char.isAlphanum, hc]

section Keys

variable {key : String} (hkey : IsBareKey key)
include hkey

theorem IsBareKey.exists_cons : ∃ first others, key.toList = first :: others ∧
    isKeyChar first = true := by
  obtain ⟨first, others, htext⟩ := List.exists_cons_of_ne_nil hkey.nonempty
  exact ⟨first, others, htext, hkey.keyChars first (htext ▸ List.mem_cons_self)⟩

/-- No other character stands where a bare key begins. -/
theorem IsBareKey.append_ne_cons (hc : isKeyChar c = false) (more : List Char) :
    key.toList ++ rest ≠ c :: more := by
  obtain ⟨first, others, htext, hfirst⟩ := hkey.exists_cons
  intro hsame
  rw [htext] at hsame
  exact ne_of_belongs hfirst hc (List.cons.inj hsame).1

theorem IsBareKey.takeKeyPart? (hc : isKeyChar c = false) :
    takeKeyPart? (key.toList ++ c :: rest) = some (key, c :: rest) := by
  obtain ⟨first, others, htext, -⟩ := hkey.exists_cons
  unfold Toml.takeKeyPart?
  split
  · rename_i hquote
    exact absurd hquote (hkey.append_ne_cons (by decide) _)
  · rename_i hquote
    exact absurd hquote (hkey.append_ne_cons (by decide) _)
  · rw [takeWhile_run hkey.keyChars hc, dropWhile_run hkey.keyChars hc, htext]
    simp only [← htext, String.ofList_toList]

/-- A bare key of one part, up to what follows the blanks behind it. -/
theorem IsBareKey.takeKey? (hc : isKeyChar c = false)
    (hdot : (skipBlanks (c :: rest)).head? ≠ some '.') :
    takeKey? (key.toList ++ c :: rest) = some (([], key), skipBlanks (c :: rest)) := by
  obtain ⟨first, others, htext, hfirst⟩ := hkey.exists_cons
  have hskip : skipBlanks (key.toList ++ c :: rest) = key.toList ++ c :: rest := by
    rw [htext, List.cons_append]
    exact skipBlanks_of_not_isBlank (not_isBlank_of_isKeyChar hfirst)
  have hparts : takeKeyParts? maxKeyParts (key.toList ++ c :: rest) =
      some ([key], skipBlanks (c :: rest)) := by
    unfold maxKeyParts Toml.takeKeyParts?
    rw [hskip, hkey.takeKeyPart? hc, Option.bind_eq_bind, Option.bind_some]
    dsimp only
    split
    · rename_i hpoint
      exact absurd (congrArg List.head? hpoint) hdot
    · rfl
  unfold Toml.takeKey?
  rw [hparts]
  rfl

end Keys

/-! ## §3  Values -/

/-- What begins like a number or a word is one. -/
theorem takeValue?_eq_takeScalar? (depth : Nat) (hc : isScalarChar c = true) :
    takeValue? depth (c :: rest) = takeScalar? (c :: rest) := by
  have hnot : ∀ {d : Char}, isScalarChar d = false → ∀ more, c :: rest ≠ d :: more :=
    fun hd _ hsame => ne_of_belongs hc hd (List.cons.inj hsame).1
  cases depth with
  | zero => exact takeValue?.eq_3 _ (hnot (by decide)) (hnot (by decide))
  | succ depth =>
      exact takeValue?.eq_8 _ _ (hnot (by decide)) (hnot (by decide)) (hnot (by decide))
        (hnot (by decide))

/-- A run of characters that has a value, at the end of its line. -/
theorem takeValue?_run (depth : Nat) {value : Toml} (hne : run ≠ [])
    (hrun : ∀ c ∈ run, isScalarChar c = true) (hvalue : scalar? run = some value) :
    takeValue? depth (run ++ '\n' :: rest) = some (value, '\n' :: rest) := by
  have hend : isScalarChar '\n' = false := by decide
  have hscalar : takeScalar? (run ++ '\n' :: rest) = some (value, '\n' :: rest) := by
    unfold takeScalar?
    rw [takeWhile_run hrun hend, dropWhile_run hrun hend]
    simp only [hvalue, Option.bind_eq_bind, Option.bind_some]
    rfl
  obtain ⟨c, others, rfl⟩ := List.exists_cons_of_ne_nil hne
  rw [List.cons_append, takeValue?_eq_takeScalar? depth (hrun c List.mem_cons_self),
    ← List.cons_append, hscalar]

theorem takeValue?_boolean (depth : Nat) (value : Bool) :
    takeValue? depth ((toString value).toList ++ '\n' :: rest) =
      some (.boolean value, '\n' :: rest) := by
  cases value with
  | false => exact takeValue?_run depth (by decide) (List.all_eq_true.1 rfl) rfl
  | true => exact takeValue?_run depth (by decide) (List.all_eq_true.1 rfl) rfl

/-! ### Whole numbers -/

theorem isScalarChar_of_isDigit (hc : c.isDigit = true) : isScalarChar c = true := by
  simp [isScalarChar, Char.isAlphanum, hc]

/-- Digits have no underscores between them that would have to go. -/
theorem ungroup?_digits (hne : run ≠ []) (hdigits : ∀ c ∈ run, c.isDigit = true) :
    ungroup? Char.isDigit run = some run := by
  induction run with
  | nil => exact absurd rfl hne
  | cons c others ih =>
      have hc : c.isDigit = true := hdigits c List.mem_cons_self
      have hothers : ∀ d ∈ others, d.isDigit = true := fun d hd =>
        hdigits d (List.mem_cons_of_mem c hd)
      cases others with
      | nil => rw [ungroup?.eq_2, if_pos hc]
      | cons d others =>
          have hd : d ≠ '_' := by
            rintro rfl
            exact absurd (hothers '_' List.mem_cons_self) (by decide)
          rw [ungroup?.eq_4 _ _ _ (by simp) (by simp [hd]), if_pos hc,
            ih (List.cons_ne_nil d others) hothers]
          rfl

theorem ofDigits_digits (hdigits : ∀ c ∈ run, c.isDigit = true) :
    ofDigits 10 run = Nat.ofDigitChars 10 run 0 := by
  refine List.foldl_ext _ _ _ fun value c hc => ?_
  rw [digitOf, if_pos (hdigits c hc)]

/-- The decimal text of a number is read as the number. -/
theorem integer?_of_isDecimal {n : Nat} (h : IsDecimal run n) : integer? run = inRange? n := by
  have hdigit : ∀ (c : Char) {text : List Char}, run = text → c ∈ text → c.isDigit = true := by
    rintro c _ rfl
    exact h.digits c
  have hwhole : wholeDigits? run = some run := by
    rcases h.canonical with rfl | ⟨hne, hhead⟩
    · rfl
    · rw [wholeDigits?.eq_3 _ (by rintro rfl; exact hhead rfl) (by rintro _ rfl; exact hhead rfl),
        ungroup?_digits hne h.digits]
  rw [integer?.eq_4 _ (fun _ htext => absurd (hdigit 'x' htext (by simp)) (by decide))
      (fun _ htext => absurd (hdigit 'o' htext (by simp)) (by decide))
      (fun _ htext => absurd (hdigit 'b' htext (by simp)) (by decide)),
    takeSign.eq_3 _ (fun _ htext => absurd (hdigit '-' htext (by simp)) (by decide))
      (fun _ htext => absurd (hdigit '+' htext (by simp)) (by decide))]
  show (wholeDigits? run).bind (fun digits => inRange? (ofDigits 10 digits)) = inRange? n
  rw [hwhole, Option.bind_some, ofDigits_digits h.digits, h.value]

/-- A number below the bound of TOML is read back from its decimal text. -/
theorem takeValue?_natural (depth : Nat) {n : Nat} (hn : (n : Int) < integerBound) :
    takeValue? depth ((toString n).toList ++ '\n' :: rest) = some (.integer n, '\n' :: rest) := by
  have hdecimal := isDecimal_toDigits n
  have htext : (toString n).toList = Nat.toDigits 10 n := Nat.toList_repr
  have hword : ∀ (c : Char) {word : String}, c ∈ word.toList → c.isDigit = false →
      String.ofList (Nat.toDigits 10 n) ≠ word := by
    rintro c _ hc hdigit rfl
    rw [String.toList_ofList] at hc
    exact ne_of_belongs (hdecimal.digits c hc) hdigit rfl
  have hscalar : scalar? (Nat.toDigits 10 n) = some (.integer n) := by
    unfold scalar?
    rw [integer?_of_isDecimal hdecimal, inRange?,
      if_pos ⟨by unfold integerBound; omega, hn⟩]
    split
    · rename_i htrue
      exact absurd htrue (hword 't' (by decide) rfl)
    · rename_i hfalse
      exact absurd hfalse (hword 'f' (by decide) rfl)
    · rfl
  rw [htext]
  exact takeValue?_run depth Nat.toDigits_ne_nil
    (fun c hc => isScalarChar_of_isDigit (hdecimal.digits c hc)) hscalar

/-! ### Texts -/

/-- The characters that stand for themselves in a text in quotation marks. -/
def isUnescaped (c : Char) : Bool := isPlain c && c ≠ '"' && c ≠ '\\'

/-- A text without anything that would have to be escaped. -/
def IsPlainText (text : String) : Prop := ∀ c ∈ text.toList, isUnescaped c = true

theorem takeBasic_plain (hrun : ∀ c ∈ run, isUnescaped c = true) :
    takeBasic (run ++ '"' :: rest) = some (run, rest) := by
  induction run with
  | nil => rw [List.nil_append, takeBasic.eq_2]
  | cons c others ih =>
      have hc : isUnescaped c = true := hrun c List.mem_cons_self
      have hquote : c ≠ '"' := ne_of_belongs hc rfl
      have hbackslash : c ≠ '\\' := ne_of_belongs hc rfl
      have hplain : isPlain c = true := by
        simpa [isUnescaped, hquote, hbackslash] using hc
      rw [List.cons_append,
        takeBasic.eq_6 _ _ hquote (fun _ _ _ _ _ h => absurd h hbackslash)
          (fun _ _ _ _ _ _ _ _ _ h => absurd h hbackslash)
          (fun _ _ h => absurd h hbackslash),
        if_pos (by simp [hplain, hbackslash]), ih fun d hd => hrun d (List.mem_cons_of_mem c hd)]
      rfl

/-- A text in quotation marks does not begin like one over several lines. -/
theorem takeString?_plain {text : String} (htext : IsPlainText text) :
    takeString? ('"' :: (text.toList ++ '"' :: '\n' :: rest)) = some (text, '\n' :: rest) := by
  have hlong : ∀ more, text.toList ++ '"' :: '\n' :: rest ≠ '"' :: '"' :: more := by
    intro more hmarks
    cases hchars : text.toList with
    | nil =>
        rw [hchars] at hmarks
        exact absurd (List.cons.inj (List.cons.inj hmarks).2).1 (by decide)
    | cons c others =>
        rw [hchars] at hmarks
        exact ne_of_belongs (htext c (hchars ▸ List.mem_cons_self)) rfl (List.cons.inj hmarks).1
  unfold takeString?
  split
  · rename_i hmarks
    exact absurd (List.cons.inj hmarks).2 (hlong _)
  · rename_i hmarks
    exact absurd (List.cons.inj hmarks).1 (by decide)
  · rename_i hmark
    rw [← (List.cons.inj hmark).2]
    simp only [takeBasic_plain htext, Option.map_some, String.ofList_toList]
  · rename_i hmark
    exact absurd (List.cons.inj hmark).1 (by decide)
  · rename_i hmark _
    exact absurd rfl (hmark _)

theorem takeValue?_string (depth : Nat) {text : String} (htext : IsPlainText text) :
    takeValue? depth ('"' :: (text.toList ++ '"' :: '\n' :: rest)) =
      some (.string text, '\n' :: rest) := by
  cases depth with
  | zero => rw [takeValue?.eq_1, takeString?_plain htext]; rfl
  | succ depth => rw [takeValue?.eq_4, takeString?_plain htext]; rfl

/-! ## §4  Lines -/

/-- An entry: a bare key, an equals sign between blanks, and a value that ends with its line. -/
theorem takeLine?_assign {key : String} (hkey : IsBareKey key) {text : List Char} {value : Toml}
    (hfirst : text.head? = some c) (hc : isBlank c = false)
    (hvalue : takeValue? maxNesting (text ++ '\n' :: rest) = some (value, '\n' :: rest)) :
    takeLine? (key.toList ++ ' ' :: '=' :: ' ' :: (text ++ '\n' :: rest)) =
      some (.assign [] key value, rest) := by
  have htaken : takeKey? (key.toList ++ ' ' :: '=' :: ' ' :: (text ++ '\n' :: rest)) =
      some (([], key), '=' :: ' ' :: (text ++ '\n' :: rest)) :=
    hkey.takeKey? (by decide) (show some '=' ≠ some '.' by decide)
  have hskip : skipBlanks (' ' :: (text ++ '\n' :: rest)) = text ++ '\n' :: rest := by
    show skipBlanks (text ++ '\n' :: rest) = text ++ '\n' :: rest
    cases text with
    | nil => rfl
    | cons d chars =>
        obtain rfl : d = c := Option.some.inj hfirst
        exact skipBlanks_of_not_isBlank hc
  rw [takeLine?.eq_3 _ (fun _ => hkey.append_ne_cons (by decide) _)
    (fun _ => hkey.append_ne_cons (by decide) _), takePair?, htaken]
  simp only [Option.bind_eq_bind, Option.bind_some, hskip, hvalue]
  rfl

/-- The header of a table with a bare key. -/
theorem takeLine?_table {table : String} (htable : IsBareKey table) :
    takeLine? ('[' :: (table.toList ++ ']' :: '\n' :: rest)) = some (.table [] table, rest) := by
  have htaken : takeKey? (table.toList ++ ']' :: '\n' :: rest) =
      some (([], table), ']' :: '\n' :: rest) :=
    htable.takeKey? (by decide) (show some ']' ≠ some '.' by decide)
  rw [takeLine?.eq_2 _ (fun _ => htable.append_ne_cons (by decide) _), htaken]
  rfl

/-- A line that begins with something else than a blank, a comment or a line break is the
first of those that say something. -/
theorem lines?_cons {text : List Char} {line : Line} (fuel : Nat)
    (hbegin : skipLines false (c :: text) = c :: text)
    (hline : takeLine? (c :: text) = some (line, rest)) :
    lines? (fuel + 1) (c :: text) = (lines? fuel rest).map (line :: ·) := by
  rw [lines?, hbegin]
  simp only [hline, Option.bind_eq_bind, Option.bind_some]
  cases lines? fuel rest <;> rfl

theorem lines?_newLine (fuel : Nat) : lines? fuel ('\n' :: rest) = lines? fuel rest := by
  have hskip : skipLines false ('\n' :: rest) = skipLines false rest := by
    rw [skipLines.eq_def]
    rfl
  cases fuel with
  | zero => rfl
  | succ fuel => rw [lines?, lines?, hskip]

theorem skipLines_cons (hnewLine : c ≠ '\n') (hreturn : c ≠ '\r') (hcomment : c ≠ '#')
    (hblank : isBlank c = false) (text : List Char) : skipLines false (c :: text) = c :: text := by
  rw [skipLines.eq_def]
  simp only [hnewLine, hreturn, hcomment, hblank, if_false]
  rfl

theorem skipLines_of_isKeyChar (hc : isKeyChar c = true) (text : List Char) :
    skipLines false (c :: text) = c :: text := by
  exact skipLines_cons (ne_of_belongs hc (by decide)) (ne_of_belongs hc (by decide))
    (ne_of_belongs hc (by decide)) (not_isBlank_of_isKeyChar hc) text

/-- The line of an entry. -/
def Line.ofEntry (entry : String × Toml) : Line := .assign [] entry.1 entry.2

end Toml

/-! ## §5  Documents -/

namespace TomlEntries

variable {entries : TomlEntries} {key : String}

/-- A new key comes behind the others. -/
theorem assign?_new (hkey : key ∉ entries.map Prod.fst) (value : Toml) :
    entries.assign? [] key value = some (entries ++ [(key, value)]) := by
  rw [assign?, Entries.lookup_of_not_mem hkey]
  rfl

/-- The last entry is changed where it stands. -/
theorem define?_last (hkey : key ∉ entries.map Prod.fst) (make : Option Toml → Option Toml)
    (value : Toml) :
    define? make (entries ++ [(key, value)]) [] key =
      (make (some value)).map fun value => entries ++ [(key, value)] := by
  have hfound : (entries ++ [(key, value)]).lookup key = some value := by
    rw [List.lookup_append, Entries.lookup_of_not_mem hkey, Option.none_or, List.lookup_cons_self]
  have hreplace : ∀ value', TomlEntries.replace (entries ++ [(key, value)]) key value' =
      entries ++ [(key, value')] := by
    intro value'
    have hothers : entries.map (fun entry => if entry.1 = key then (key, value') else entry) =
        entries := by
      refine (List.map_congr_left fun entry hentry => if_neg ?_).trans (List.map_id entries)
      rintro rfl
      exact hkey (List.mem_map_of_mem hentry)
    rw [TomlEntries.replace, List.map_append, hothers, List.map_singleton, if_pos rfl]
  rw [define?, hfound]
  cases hmade : make (some value) with
  | none => simp [hmade]
  | some value' => simp [hmade, hreplace]

end TomlEntries

namespace Toml.Document

/-- Entries with keys of their own come behind those that are there, at the place in the
document that takes them. -/
theorem foldlM_ofEntry (place : TomlEntries → Document)
    (hplace : ∀ (entries : TomlEntries) (entry : String × Toml),
      (place entries).add? (.ofEntry entry) =
        (entries.assign? [] entry.1 entry.2).map place)
    (entries : TomlEntries) {new : TomlEntries} (hkeys : ((entries ++ new).map Prod.fst).Nodup) :
    (new.map Line.ofEntry).foldlM add? (place entries) = some (place (entries ++ new)) := by
  induction new generalizing entries with
  | nil => rw [List.append_nil]; rfl
  | cons entry new ih =>
      have hkey : entry.1 ∉ entries.map Prod.fst := by
        rw [List.map_append, List.map_cons, List.nodup_middle, List.nodup_cons] at hkeys
        exact fun hmem => hkeys.1 (List.mem_append_left _ hmem)
      rw [List.append_cons] at hkeys ⊢
      rw [List.map_cons, List.foldlM_cons, hplace, TomlEntries.assign?_new hkey, Option.map_some,
        Option.bind_eq_bind, Option.bind_some, ih _ hkeys]

variable {root inner : TomlEntries} {table : String}

/-- Before the first header the entries are those of the document. -/
theorem foldlM_root (hroot : (root.map Prod.fst).Nodup) :
    (root.map Line.ofEntry).foldlM add? empty = some ⟨root, none⟩ :=
  foldlM_ofEntry (fun entries => ⟨entries, none⟩) (fun entries entry => by
    cases hassigned : entries.assign? [] entry.1 entry.2 <;>
      simp [add?, Line.ofEntry, hassigned]) [] hroot

/-- Below a header the entries are those of its table. -/
theorem foldlM_table (hroot : (root.map Prod.fst).Nodup) (htable : table ∉ root.map Prod.fst)
    (hinner : (inner.map Prod.fst).Nodup) :
    (root.map Line.ofEntry ++ .table [] table :: inner.map Line.ofEntry).foldlM add? empty =
      some ⟨root ++ [(table, .table .header inner)], some ([], table)⟩ := by
  have hheader : add? ⟨root, none⟩ (.table [] table) =
      some ⟨root ++ [(table, .table .header [])], some ([], table)⟩ := by
    rw [add?, TomlEntries.define?, Entries.lookup_of_not_mem htable]
    rfl
  rw [List.foldlM_append, foldlM_root hroot, Option.bind_eq_bind, Option.bind_some,
    List.foldlM_cons, hheader, Option.bind_eq_bind, Option.bind_some]
  refine foldlM_ofEntry
    (fun entries => ⟨root ++ [(table, .table .header entries)], some ([], table)⟩)
    (fun entries entry => ?_) [] hinner
  simp only [add?, Line.ofEntry, TomlEntries.define?_last htable, TomlEntries.inside?]
  cases entries.assign? [] entry.1 entry.2 <;> rfl

end Toml.Document

end InfoFlow
