import InfoFlow.Proofs.Settings.Removal
import InfoFlow.Proofs.Toml.Reader
import InfoFlow.Tool

/-!
# Settings are read as they are written

Settings are read back from the text in JSON and from that in TOML, and where keys were taken
out of a text, with the defaults in their place (`Settings.read_back`). In TOML every line is
read by itself: an entry says what key has what value, the header of the table of the monitor
where the entries below it go, and a blank line says nothing. So the document that is read
depends on nothing but what the lines say, and that is what is left of the entries.
-/

namespace InfoFlow

/-! ## §1  Values and lines -/

namespace SettingValue

/-- The value can be written: a number that TOML has, a text with nothing to escape. -/
def IsPlain : SettingValue → Prop
  | flag _ => True
  | number value => (value : Int) < Toml.integerBound
  | word value => Toml.IsPlainText value

variable {value : SettingValue} {rest : List Char}

/-- A value is read up to the end of its line. -/
theorem takeValue?_text (h : value.IsPlain) (depth : Nat) :
    Toml.takeValue? depth (value.text.toList ++ '\n' :: rest) =
      some (value.toToml, '\n' :: rest) := by
  cases value with
  | flag value => exact Toml.takeValue?_boolean depth value
  | number value => exact Toml.takeValue?_natural depth h
  | word value =>
      have htext : (text (word value)).toList ++ '\n' :: rest =
          '"' :: (value.toList ++ '"' :: '\n' :: rest) := by
        simp [text, toString]
      rw [htext]
      exact Toml.takeValue?_string depth h

/-- No value begins with a blank. -/
theorem exists_head?_text (value : SettingValue) :
    ∃ first, value.text.toList.head? = some first ∧ Toml.isBlank first = false := by
  cases value with
  | flag value =>
      cases value with
      | false => exact ⟨'f', rfl, rfl⟩
      | true => exact ⟨'t', rfl, rfl⟩
  | number value =>
      obtain ⟨first, others, hdigits⟩ :=
        List.exists_cons_of_ne_nil (Nat.toDigits_ne_nil (b := 10) (n := value))
      have hdigit : first.isDigit = true :=
        (isDecimal_toDigits value).digits first (hdigits ▸ List.mem_cons_self)
      refine ⟨first, ?_, Toml.not_isBlank_of_isKeyChar (Toml.isKeyChar_of_isDigit hdigit)⟩
      rw [text, Nat.toString_eq_repr, Nat.toList_repr, hdigits, List.head?_cons]
  | word value => exact ⟨'"', by simp [text, toString], rfl⟩

end SettingValue

namespace SettingLine

/-- The line can be written: its key needs no quotation marks, and neither does its value
have to be escaped. -/
def IsPlain : SettingLine → Prop
  | entry key value => Toml.IsBareKey key ∧ value.IsPlain
  | header table => Toml.IsBareKey table
  | blank => True

/-- What the line says. -/
def line? : SettingLine → Option Toml.Line
  | entry key value => some (.ofEntry (key, value.toToml))
  | header table => some (.table [] table)
  | blank => none

theorem toList_text_entry (key : String) (value : SettingValue) :
    (text (entry key value)).toList =
      key.toList ++ ' ' :: '=' :: ' ' :: (value.text.toList ++ ['\n']) := by
  simp [text, toString]

theorem toList_text_header (table : String) :
    (text (header table)).toList = '[' :: (table.toList ++ [']', '\n']) := by
  simp [text, toString]

/-- A line begins with a character, and that is not the mark of the byte order. -/
theorem exists_cons_text {line : SettingLine} (h : line.IsPlain) :
    ∃ first others, line.text.toList = first :: others ∧ first ≠ '\ufeff' := by
  cases line with
  | entry key value =>
      obtain ⟨first, others, hchars, hfirst⟩ := h.1.exists_cons
      refine ⟨first, _, by rw [toList_text_entry, hchars, List.cons_append], ?_⟩
      rintro rfl
      exact absurd hfirst (by decide)
  | header table => exact ⟨'[', _, toList_text_header table, by decide⟩
  | blank => exact ⟨'\n', [], rfl, by decide⟩

variable {lines : List SettingLine}

/-- The first of several lines says what it says, and nothing if it is blank. -/
theorem lines?_text {line : SettingLine} (h : line.IsPlain) {rest : List Char} (fuel : Nat) :
    Toml.lines? (fuel + 1) (line.text.toList ++ rest) =
      match line.line? with
      | none => Toml.lines? (fuel + 1) rest
      | some said => (Toml.lines? fuel rest).map (said :: ·) := by
  cases line with
  | entry key value =>
      obtain ⟨hkey, hvalue⟩ := h
      have htext : (text (entry key value)).toList ++ rest =
          key.toList ++ ' ' :: '=' :: ' ' :: (value.text.toList ++ '\n' :: rest) := by
        simp [toList_text_entry]
      obtain ⟨begin, hbegin, hblank⟩ := value.exists_head?_text
      have hline : Toml.takeLine?
          (key.toList ++ ' ' :: '=' :: ' ' :: (value.text.toList ++ '\n' :: rest)) =
            some (.ofEntry (key, value.toToml), rest) :=
        Toml.takeLine?_assign hkey hbegin hblank
          (value.takeValue?_text hvalue Toml.maxNesting)
      obtain ⟨first, others, hchars, hfirst⟩ := hkey.exists_cons
      rw [htext]
      rw [hchars] at hline ⊢
      exact Toml.lines?_cons fuel (Toml.skipLines_of_isKeyChar hfirst _) hline
  | header table =>
      have htext : (text (header table)).toList ++ rest =
          '[' :: (table.toList ++ ']' :: '\n' :: rest) := by
        simp [toList_text_header]
      rw [htext]
      exact Toml.lines?_cons fuel
        (Toml.skipLines_cons (by decide) (by decide) (by decide) (by decide) _)
        (Toml.takeLine?_table h)
  | blank => exact Toml.lines?_newLine (fuel + 1)

/-- **Lines are read as what they say**, blank ones as nothing. -/
theorem lines?_flatMap_text (hplain : ∀ line ∈ lines, line.IsPlain) {fuel : Nat}
    (hfuel : lines.length < fuel) :
    Toml.lines? fuel (lines.flatMap fun line => line.text.toList) =
      some (lines.filterMap line?) := by
  induction lines generalizing fuel with
  | nil =>
      obtain ⟨fuel, rfl⟩ := Nat.exists_eq_add_one_of_ne_zero (Nat.ne_of_gt hfuel)
      rfl
  | cons line lines ih =>
      obtain ⟨fuel, rfl⟩ := Nat.exists_eq_add_one_of_ne_zero (Nat.ne_zero_of_lt hfuel)
      have hline := hplain line List.mem_cons_self
      have hlines := fun other hother => hplain other (List.mem_cons_of_mem line hother)
      rw [List.length_cons] at hfuel
      rw [List.flatMap_cons, lines?_text hline]
      cases hsaid : line.line? with
      | none =>
          rw [List.filterMap_cons_none hsaid]
          exact ih hlines (by omega)
      | some said =>
          rw [List.filterMap_cons_some hsaid]
          simp only [ih hlines (Nat.lt_of_succ_lt_succ hfuel), Option.map_some]

theorem length_le_flatMap_text (hplain : ∀ line ∈ lines, line.IsPlain) :
    lines.length ≤ (lines.flatMap fun line => line.text.toList).length := by
  induction lines with
  | nil => exact Nat.le_refl 0
  | cons line lines ih =>
      obtain ⟨first, others, htext, -⟩ := exists_cons_text (hplain line List.mem_cons_self)
      have hlines := ih fun other hother => hplain other (List.mem_cons_of_mem line hother)
      rw [List.flatMap_cons, List.length_append, List.length_cons, htext, List.length_cons]
      omega

theorem dropByteOrderMark_flatMap_text (hplain : ∀ line ∈ lines, line.IsPlain) :
    Toml.dropByteOrderMark (lines.flatMap fun line => line.text.toList) =
      lines.flatMap fun line => line.text.toList := by
  cases lines with
  | nil => rfl
  | cons line lines =>
      obtain ⟨first, others, htext, hfirst⟩ := exists_cons_text (hplain line List.mem_cons_self)
      rw [List.flatMap_cons, htext, List.cons_append]
      exact Toml.dropByteOrderMark.eq_2 _ fun _ h => hfirst (List.cons.inj h).1

/-- **A document of such lines is built from what they say.** -/
theorem read?_join_text (hplain : ∀ line ∈ lines, line.IsPlain) :
    Toml.read? (String.join (lines.map text)) =
      ((lines.filterMap line?).foldlM Toml.Document.add? .empty).map
        fun document => .table .header document.entries := by
  have htext : (String.join (lines.map text)).toList =
      lines.flatMap fun line => line.text.toList := by
    rw [String.toList_join, List.flatMap_map]
  have hfuel := Nat.lt_succ_of_le (length_le_flatMap_text hplain)
  rw [Toml.read?, htext, dropByteOrderMark_flatMap_text hplain]
  simp only [lines?_flatMap_text hplain hfuel, Option.bind_eq_bind, Option.bind_some]
  cases (lines.filterMap line?).foldlM Toml.Document.add? .empty <;> rfl

/-- The lines that are not blank. -/
def nonBlank (lines : List SettingLine) : List SettingLine := lines.filter (· ≠ blank)

/-- Blank lines say nothing. -/
theorem filterMap_line?_nonBlank (lines : List SettingLine) :
    (nonBlank lines).filterMap line? = lines.filterMap line? := by
  rw [nonBlank, List.filterMap_filter]
  refine List.filterMap_congr fun line _ => ?_
  cases line <;> rfl

/-! ## §2  What is left of a file -/

/-- The line of an entry. -/
def ofEntry (item : String × SettingValue) : SettingLine := entry item.1 item.2

variable (dropped : String → Bool)

/-- Where nothing is taken out, all lines are left. -/
theorem without_nothing (lines : List SettingLine) :
    without (fun _ => false) true lines = lines := by
  induction lines with
  | nil => rfl
  | cons line lines ih => cases line <;> simp [without, ih]

theorem without_sublist (here : Bool) (lines : List SettingLine) :
    (without dropped here lines).Sublist lines := by
  induction lines generalizing here with
  | nil => exact List.Sublist.refl []
  | cons line lines ih =>
      cases line with
      | entry key value =>
          rw [without]
          split
          · exact (ih here).cons_cons _
          · exact (ih here).cons _
      | header table =>
          rw [without]
          split
          · exact (ih false).cons _
          · exact (ih true).cons_cons _
      | blank => exact (ih here).cons_cons _

/-- Of the entries of a table that stays, those are left whose keys stay. -/
theorem filterMap_line?_entries (entries : List (String × SettingValue))
    (more : List SettingLine) :
    (without dropped true (entries.map ofEntry ++ more)).filterMap line? =
      (Entries.remaining dropped SettingValue.toToml entries).map Toml.Line.ofEntry ++
        (without dropped true more).filterMap line? := by
  induction entries with
  | nil => rfl
  | cons item entries ih =>
      rw [List.map_cons, List.cons_append, ofEntry, without, Entries.remaining_cons]
      cases hdropped : dropped item.1 with
      | true => simpa using ih
      | false => simpa [line?] using ih

/-- Of a table that was taken out nothing is left. -/
theorem without_false_entries (entries : List (String × SettingValue)) :
    without dropped false (entries.map ofEntry) = [] := by
  induction entries with
  | nil => rfl
  | cons item entries ih => exact ih

end SettingLine

namespace Policy

variable (policy : Policy)

theorem settingLines_eq : policy.settingLines = policy.entries.map SettingLine.ofEntry := by
  unfold settingLines entries
  cases policy.maxDepth <;> rfl

theorem isWritable_iff : policy.isWritable = true ↔
    ∀ depth ∈ policy.maxDepth, depth.toNat ≤ Nat.pow 2 63 - 1 := by
  have hbound : Toml.integerBound = 0x8000000000000000 := rfl
  have hgreatest : Nat.pow 2 63 - 1 = 0x7FFFFFFFFFFFFFFF := rfl
  rw [isWritable, Option.all_eq_true, hgreatest]
  refine forall_congr' fun depth => forall_congr' fun _ => ?_
  rw [hbound, decide_eq_true_eq]
  omega

theorem isPlain_entries (h : policy.isWritable = true) :
    ∀ item ∈ policy.entries, (SettingLine.ofEntry item).IsPlain := by
  have hregister : Toml.IsBareKey "auto_register_heap" := ⟨by decide, List.all_eq_true.1 rfl⟩
  have hdepth : Toml.IsBareKey "max_scope_depth" := ⟨by decide, List.all_eq_true.1 rfl⟩
  have hbalanced : Toml.IsBareKey "require_balanced_close" := ⟨by decide, List.all_eq_true.1 rfl⟩
  rw [entries, List.forall_mem_append, List.forall_mem_append, List.forall_mem_singleton,
    List.forall_mem_singleton]
  refine ⟨⟨⟨hregister, trivial⟩, fun item hitem => ?_⟩, hbalanced, trivial⟩
  rw [Option.mem_toList, Option.map_eq_some_iff] at hitem
  obtain ⟨depth, hset, rfl⟩ := hitem
  have hsmall : (depth.toNat : Int) < Toml.integerBound :=
    of_decide_eq_true ((Option.all_eq_true _ _).1 h depth hset)
  exact ⟨hdepth, hsmall⟩

end Policy

namespace Settings

variable (settings : Settings)

theorem settingLines_eq : settings.settingLines = settings.entries.map SettingLine.ofEntry ++
    .blank :: .header "monitor" :: settings.monitor.entries.map SettingLine.ofEntry := by
  rw [← Policy.settingLines_eq]
  rfl

theorem isPlain_settingLines (h : settings.monitor.isWritable = true) :
    ∀ line ∈ settings.settingLines, line.IsPlain := by
  have hlattice : Toml.IsBareKey "lattice" := ⟨by decide, List.all_eq_true.1 rfl⟩
  have hname : Toml.IsPlainText settings.lattice.name := by
    cases settings.lattice <;> exact List.all_eq_true.1 rfl
  have hkeep : Toml.IsBareKey "keep_going" := ⟨by decide, List.all_eq_true.1 rfl⟩
  have hmonitor : Toml.IsBareKey "monitor" := ⟨by decide, List.all_eq_true.1 rfl⟩
  rw [settingLines_eq, List.forall_mem_append, List.forall_mem_cons, List.forall_mem_cons,
    List.forall_mem_map, List.forall_mem_map, entries, List.forall_mem_cons,
    List.forall_mem_singleton]
  exact ⟨⟨⟨hlattice, hname⟩, hkeep, trivial⟩, trivial, hmonitor,
    settings.monitor.isPlain_entries h⟩

variable (dropped : String → Bool)

/-- What the lines that are left say. -/
theorem filterMap_line?_without :
    (SettingLine.without dropped true settings.settingLines).filterMap SettingLine.line? =
      (Entries.remaining dropped SettingValue.toToml settings.entries).map Toml.Line.ofEntry ++
        if dropped "monitor" then []
        else .table [] "monitor" ::
          (Entries.remaining dropped SettingValue.toToml settings.monitor.entries).map
            Toml.Line.ofEntry := by
  have htable := SettingLine.filterMap_line?_entries dropped settings.monitor.entries []
  rw [List.append_nil, SettingLine.without, List.filterMap_nil, List.append_nil] at htable
  rw [settingLines_eq, SettingLine.filterMap_line?_entries, ← htable, SettingLine.without,
    SettingLine.without]
  cases dropped "monitor" with
  | true => rw [if_pos rfl, if_pos rfl, SettingLine.without_false_entries]; rfl
  | false => rfl

/-- The lines that are left write what is left of the settings. -/
theorem read?_without (h : settings.monitor.isWritable = true) {lines : List SettingLine}
    (hlines : SettingLine.nonBlank lines =
      SettingLine.nonBlank (SettingLine.without dropped true settings.settingLines)) :
    Toml.read? (String.join (lines.map SettingLine.text)) =
      some (.table .header (settings.left dropped SettingValue.toToml (.table .header))) := by
  have hplain : ∀ line ∈ lines, line.IsPlain := by
    intro line hline
    by_cases hblank : line = .blank
    · subst hblank
      trivial
    · have hmem : line ∈ SettingLine.nonBlank lines :=
        List.mem_filter.2 ⟨hline, by simpa using hblank⟩
      rw [hlines] at hmem
      exact settings.isPlain_settingLines h line
        ((SettingLine.without_sublist dropped true _).subset (List.mem_filter.1 hmem).1)
  have hsaid : lines.filterMap SettingLine.line? =
      (SettingLine.without dropped true settings.settingLines).filterMap SettingLine.line? := by
    rw [← SettingLine.filterMap_line?_nonBlank, hlines, SettingLine.filterMap_line?_nonBlank]
  have hroot := Entries.nodup_remaining dropped SettingValue.toToml settings.nodup_entries
  have hmonitor : "monitor" ∉
      (Entries.remaining dropped SettingValue.toToml settings.entries).map Prod.fst := by
    rw [Entries.map_fst_remaining]
    exact fun hmem => absurd (List.mem_filter.1 hmem).1 (by simp [entries])
  rw [SettingLine.read?_join_text hplain, hsaid, filterMap_line?_without, left_eq]
  cases dropped "monitor" with
  | true =>
      simp only [if_true, List.append_nil, Toml.Document.foldlM_root hroot, Option.map_some]
  | false =>
      rw [if_neg Bool.false_ne_true, if_neg Bool.false_ne_true,
        Toml.Document.foldlM_table hroot hmonitor
          (Entries.nodup_remaining _ _ settings.monitor.nodup_entries)]
      rfl

end Settings

/-! ## §3  What is read of a file -/

theorem Toml.defaulted_eq_elim {α : Type} (default : α) (decode : Toml → Option α)
    (field : Option Toml) : defaulted default decode field = field.elim (some default) decode := by
  cases field <;> rfl

section LeftInToml

variable (dropped : String → Bool)

theorem Policy.ofToml?_remaining (policy : Policy) (origin : TableOrigin) :
    Policy.ofToml? (.table origin
      (Entries.remaining dropped SettingValue.toToml policy.entries)) =
        some (policy.reset dropped) := by
  have hflag : ∀ value, Toml.boolean? (SettingValue.flag value).toToml = some value :=
    fun _ => rfl
  have hnumber : ∀ depth : UInt64,
      (SettingValue.number depth.toNat).toToml.word?.map some = some (some depth) := by
    intro depth
    show some (some (UInt64.ofNat depth.toNat)) = some (some depth)
    rw [UInt64.ofNat_toNat]
  rw [ofToml?, Toml.fields?]
  simp only [List.map_cons, List.map_nil, Entries.lookup_remaining, lookup_autoRegister,
    lookup_maxDepth, lookup_balancedClose, Option.map_some, Option.map_map, Option.bind_eq_bind,
    Option.bind_some, Function.comp_def, Toml.defaulted_eq_elim, Entries.elim_ite _ (hflag _),
    Entries.elim_optional (fun value : Toml => value.word?.map some) hnumber]
  rfl

theorem Settings.ofToml?_left (settings : Settings) (origin : TableOrigin) :
    Settings.ofToml? (.table origin (settings.left dropped SettingValue.toToml (.table .header))) =
      some (settings.reset dropped) := by
  have hchain : (SettingValue.word settings.lattice.name).toToml.caseName?.bind Chain.ofName? =
      some settings.lattice := by
    cases settings.lattice <;> rfl
  have hflag : ∀ value, Toml.boolean? (SettingValue.flag value).toToml = some value :=
    fun _ => rfl
  rw [ofToml?, Toml.fields?]
  simp only [List.map_cons, List.map_nil, lookup_left_lattice, lookup_left_keepGoing,
    lookup_left_monitor, Option.bind_eq_bind, Option.bind_some, Toml.defaulted_eq_elim,
    Entries.elim_ite (fun value : Toml => value.caseName?.bind Chain.ofName?) hchain,
    Entries.elim_ite _ (hflag _),
    Entries.elim_ite _ (Policy.ofToml?_remaining dropped settings.monitor .header)]
  rfl

end LeftInToml

/-! ## §4  Whole texts and parts of them -/

namespace Settings

variable (settings : Settings)

theorem isSome_tomlText? : settings.tomlText?.isSome = settings.monitor.isWritable := by
  rw [tomlText?]
  cases settings.monitor.isWritable <;> rfl

/-- A file with the lines that are left gives those settings, with the ones that were taken out
at their defaults. -/
theorem load_without (dropped : String → Bool) (h : settings.monitor.isWritable = true)
    {lines : List SettingLine}
    (hlines : SettingLine.nonBlank lines =
      SettingLine.nonBlank (SettingLine.without dropped true settings.settingLines))
    (path : String) :
    load ⟨path, some (String.join (lines.map SettingLine.text))⟩ =
      .ok (settings.reset dropped) := by
  have hread : readToml? (String.join (lines.map SettingLine.text)) =
      some (settings.reset dropped) := by
    rw [readToml?, settings.read?_without dropped h hlines]
    exact settings.ofToml?_left dropped .header
  rw [load]
  simp only [hread]

/-- **Settings are read back from their texts, whole or in part.** The text in JSON is read as
the settings. There is a text in TOML exactly if no nesting limit is set or one below `2 ^ 63`,
and a file with that text gives the settings. Keys may be taken out of either text, the whole
table of the monitor among them, and blank lines be put in: the settings under those keys are
then the defaults, and all others are as before. -/
theorem read_back :
    read? settings.jsonText = some settings ∧
      (settings.tomlText?.isSome = true ↔
        ∀ depth ∈ settings.monitor.maxDepth, depth.toNat ≤ Nat.pow 2 63 - 1) ∧
      (∀ text path, settings.tomlText? = some text → load ⟨path, some text⟩ = .ok settings) ∧
      ∀ dropped : String → Bool,
        read? (settings.toJson.without dropped).compact = some (settings.reset dropped) ∧
          ∀ lines path, settings.tomlText?.isSome = true →
            SettingLine.nonBlank lines =
              SettingLine.nonBlank (SettingLine.without dropped true settings.settingLines) →
            load ⟨path, some (String.join (lines.map SettingLine.text))⟩ =
              .ok (settings.reset dropped) := by
  refine ⟨?_, ?_, fun text path htext => ?_,
    fun dropped => ⟨?_, fun lines path hsome hlines => ?_⟩⟩
  · have hread := settings.read?_compact_without fun _ => false
    rwa [Json.without_nothing] at hread
  · rw [isSome_tomlText?]
    exact settings.monitor.isWritable_iff
  · have hwritable : settings.monitor.isWritable = true := by
      rw [← isSome_tomlText?, htext, Option.isSome_some]
    have hlines : SettingLine.nonBlank settings.settingLines = SettingLine.nonBlank
        (SettingLine.without (fun _ => false) true settings.settingLines) := by
      rw [SettingLine.without_nothing]
    rw [tomlText?, if_pos hwritable, Option.some.injEq] at htext
    rw [← htext]
    exact settings.load_without (fun _ => false) hwritable hlines path
  · exact settings.read?_compact_without dropped
  · rw [isSome_tomlText?] at hsome
    exact settings.load_without dropped hsome hlines path

section Witness

/-- Nothing as it is by default, and the greatest limit that TOML can write. -/
def deepest : Settings where
  lattice := .three
  keepGoing := true
  monitor := { autoRegister := false, maxDepth := some 0x7FFFFFFFFFFFFFFF, balancedClose := false }

/-- The text of these settings in TOML. -/
def deepestText : String :=
  "lattice = \"three\"\nkeep_going = true\n\n[monitor]\nauto_register_heap = false\n" ++
    "max_scope_depth = 9223372036854775807\nrequire_balanced_close = false\n"

/-- What is left of the text without the lattice, the limit and the blank line. -/
def deepestPart : List SettingLine :=
  [.entry "keep_going" (.flag true), .header "monitor", .entry "auto_register_heap" (.flag false),
    .entry "require_balanced_close" (.flag false)]

theorem read_back_deepest :
    deepest.tomlText? = some deepestText ∧
      load ⟨"flow.toml", some deepestText⟩ = .ok deepest ∧
      load ⟨"flow.toml", some (String.join (deepestPart.map SettingLine.text))⟩ =
        .ok { keepGoing := true, monitor := { autoRegister := false, balancedClose := false } } := by
  have htext : deepest.tomlText? = some deepestText := by decide +kernel
  have hsome : deepest.tomlText?.isSome = true := by rw [htext]; rfl
  obtain ⟨-, -, hwhole, hparts⟩ := read_back deepest
  refine ⟨htext, hwhole deepestText "flow.toml" htext, ?_⟩
  exact (hparts fun key => key = "lattice" || key = "max_scope_depth").2 deepestPart "flow.toml"
    hsome (by decide)

end Witness

end Settings

end InfoFlow
