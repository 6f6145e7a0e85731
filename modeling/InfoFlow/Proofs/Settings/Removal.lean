import InfoFlow.Proofs.Json.Reader
import InfoFlow.Proofs.Json.Structure
import InfoFlow.Settings.Json
import InfoFlow.Settings.Toml

/-!
# Settings of which some are left out

Settings have entries of their own and a table of entries for the monitor, in JSON and in TOML
alike. From the text of either kind keys may be taken out, a key of the monitor or the whole
table among them. What is left is again a table of entries, in which a key that was taken out
has no value and every other key has the value that it had (`Settings.left`), whatever the
format. So the settings of the keys that were taken out are read as the defaults, and all
others as they were (`Settings.reset`); here this is shown for JSON.
-/

namespace InfoFlow

/-! ## §1  Taking keys out -/

namespace Json

mutual

/-- The value without the members that have these keys, however deep they stand. -/
def without (dropped : String → Bool) : Json → Json
  | null => null
  | bool value => bool value
  | number value => number value
  | string text => string text
  | array elements => array (elementsWithout dropped elements)
  | object members => object (membersWithout dropped members)

def elementsWithout (dropped : String → Bool) : List Json → List Json
  | [] => []
  | element :: elements => without dropped element :: elementsWithout dropped elements

def membersWithout (dropped : String → Bool) :
    List (Option String × Json) → List (Option String × Json)
  | [] => []
  | (key, value) :: members =>
      if key.any dropped then membersWithout dropped members
      else (key, without dropped value) :: membersWithout dropped members

end

theorem without_record (dropped : String → Bool) (fields : List (String × Json)) :
    (record fields).without dropped =
      record (Entries.remaining dropped (without dropped) fields) := by
  have hmembers : membersWithout dropped (members fields) =
      members (Entries.remaining dropped (without dropped) fields) := by
    induction fields with
    | nil => rfl
    | cons field fields ih =>
        rw [members, List.map_cons, ← members, membersWithout, Entries.remaining_cons, ih]
        by_cases hdropped : dropped field.1 = true
        · simp [hdropped]
        · simp [hdropped, members]
  rw [record_eq_object, without, hmembers, record_eq_object]

mutual

theorem without_nothing (json : Json) : json.without (fun _ => false) = json := by
  cases json with
  | array elements => rw [without, elementsWithout_nothing elements]
  | object members => rw [without, membersWithout_nothing members]
  | null => rfl
  | bool value => rfl
  | number value => rfl
  | string text => rfl

theorem elementsWithout_nothing (elements : List Json) :
    elementsWithout (fun _ => false) elements = elements := by
  cases elements with
  | nil => rfl
  | cons element elements =>
      rw [elementsWithout, without_nothing element, elementsWithout_nothing elements]

theorem membersWithout_nothing (members : List (Option String × Json)) :
    membersWithout (fun _ => false) members = members := by
  cases members with
  | nil => rfl
  | cons member members =>
      obtain ⟨key, value⟩ := member
      have hkey : key.any (fun _ => false) = false := by cases key <;> rfl
      rw [membersWithout, hkey, without_nothing value, membersWithout_nothing members]
      rfl

end

end Json

/-- The lines of a configuration file without the entries that have these keys and without the
tables that have these names. `here` says whether the lines stand in a table that stays. -/
def SettingLine.without (dropped : String → Bool) : (here : Bool) → List SettingLine →
    List SettingLine
  | _, [] => []
  | here, entry key value :: lines =>
      if here && !dropped key then entry key value :: without dropped here lines
      else without dropped here lines
  | _, header table :: lines =>
      if dropped table then without dropped false lines
      else header table :: without dropped true lines
  | here, blank :: lines => blank :: without dropped here lines

/-- The configuration with the settings under these keys at their defaults. -/
def Policy.reset (dropped : String → Bool) (policy : Policy) : Policy :=
  let default : Policy := {}
  { autoRegister := if dropped "auto_register_heap" then default.autoRegister
      else policy.autoRegister
    maxDepth := if dropped "max_scope_depth" then default.maxDepth else policy.maxDepth
    balancedClose := if dropped "require_balanced_close" then default.balancedClose
      else policy.balancedClose }

/-- The settings with those under these keys at their defaults; under the key of the monitor
there are all of its settings. -/
def Settings.reset (dropped : String → Bool) (settings : Settings) : Settings :=
  let default : Settings := {}
  { lattice := if dropped "lattice" then default.lattice else settings.lattice
    keepGoing := if dropped "keep_going" then default.keepGoing else settings.keepGoing
    monitor := if dropped "monitor" then default.monitor else settings.monitor.reset dropped }

/-! ## §2  Entries of settings -/

namespace SettingValue

def toJson : SettingValue → Json
  | flag value => .bool value
  | number value => .natural value
  | word value => .text value

def toToml : SettingValue → Toml
  | flag value => .boolean value
  | number value => .integer value
  | word value => .string value

theorem without_toJson (dropped : String → Bool) (value : SettingValue) :
    value.toJson.without dropped = value.toJson := by
  cases value <;> rfl

end SettingValue

namespace Policy

variable (policy : Policy)

/-- The entries of a configuration; a nesting limit that is not set has none. -/
def entries : List (String × SettingValue) :=
  [("auto_register_heap", .flag policy.autoRegister)] ++
    (policy.maxDepth.map fun depth =>
      ("max_scope_depth", SettingValue.number depth.toNat)).toList ++
    [("require_balanced_close", .flag policy.balancedClose)]

theorem nodup_entries : (policy.entries.map Prod.fst).Nodup := by
  unfold entries
  cases policy.maxDepth <;> simp

@[simp] theorem lookup_autoRegister :
    policy.entries.lookup "auto_register_heap" = some (.flag policy.autoRegister) := rfl

@[simp] theorem lookup_maxDepth :
    policy.entries.lookup "max_scope_depth" =
      policy.maxDepth.map fun depth => .number depth.toNat := by
  unfold entries
  cases policy.maxDepth <;> rfl

@[simp] theorem lookup_balancedClose :
    policy.entries.lookup "require_balanced_close" = some (.flag policy.balancedClose) := by
  unfold entries
  cases policy.maxDepth <;> rfl

theorem toJson_eq_record :
    policy.toJson = .record (policy.entries.map fun entry => (entry.1, entry.2.toJson)) := by
  unfold toJson entries
  cases policy.maxDepth <;> rfl

end Policy

section Left

variable (dropped : String → Bool) {β : Type} (value : SettingValue → β)
  (table : List (String × β) → β)

namespace Settings

variable (settings : Settings)

/-- The entries of settings outside the table of the monitor. -/
def entries : List (String × SettingValue) :=
  [("lattice", .word settings.lattice.name), ("keep_going", .flag settings.keepGoing)]

/-- What is left of settings in a format that has these values and tables. -/
def left : List (String × β) :=
  Entries.remaining dropped id
    (settings.entries.map (fun entry => (entry.1, value entry.2)) ++
      [("monitor", table (Entries.remaining dropped value settings.monitor.entries))])

theorem left_eq : settings.left dropped value table =
    Entries.remaining dropped value settings.entries ++
      if dropped "monitor" then []
      else [("monitor", table (Entries.remaining dropped value settings.monitor.entries))] := by
  rw [left, Entries.remaining_append, Entries.remaining_map, Entries.remaining_cons]
  rfl

theorem nodup_entries : (settings.entries.map Prod.fst).Nodup := by
  simp [entries]

theorem nodup_left : ((settings.left dropped value table).map Prod.fst).Nodup :=
  Entries.nodup_remaining _ _ (by simp [entries])

theorem lookup_left_lattice : (settings.left dropped value table).lookup "lattice" =
    if dropped "lattice" then none else some (value (.word settings.lattice.name)) :=
  Entries.lookup_remaining ..

theorem lookup_left_keepGoing : (settings.left dropped value table).lookup "keep_going" =
    if dropped "keep_going" then none else some (value (.flag settings.keepGoing)) :=
  Entries.lookup_remaining ..

theorem lookup_left_monitor : (settings.left dropped value table).lookup "monitor" =
    if dropped "monitor" then none
    else some (table (Entries.remaining dropped value settings.monitor.entries)) :=
  Entries.lookup_remaining ..

end Settings

end Left

/-! ## §3  What is left in JSON -/

section LeftInJson

variable (dropped : String → Bool)

theorem Json.defaulted_eq_elim {α : Type} (default : α) (decode : Json → Option α)
    (field : Option Json) : defaulted default decode field = field.elim (some default) decode := by
  cases field <;> rfl

namespace Policy

theorem without_toJson (policy : Policy) : policy.toJson.without dropped =
    .record (Entries.remaining dropped SettingValue.toJson policy.entries) := by
  rw [toJson_eq_record, Json.without_record, Entries.remaining_map]
  simp only [SettingValue.without_toJson]

theorem limit?_natural (depth : UInt64) : limit? (.natural depth.toNat) = some (some depth) := by
  show (Json.natural depth.toNat).word?.map some = some (some depth)
  rw [Json.word?_natural, Option.map_some]

theorem ofJson?_without (policy : Policy) :
    Policy.ofJson? (policy.toJson.without dropped) = some (policy.reset dropped) := by
  have hflag : ∀ value, Json.bool? (SettingValue.flag value).toJson = some value := fun _ => rfl
  have hnumber : ∀ depth : UInt64,
      limit? (SettingValue.number depth.toNat).toJson = some (some depth) := limit?_natural
  rw [without_toJson, ofJson?,
    Json.fields?_eq_lookup (Entries.nodup_remaining _ _ policy.nodup_entries)]
  simp only [List.map_cons, List.map_nil, Entries.lookup_remaining, lookup_autoRegister,
    lookup_maxDepth, lookup_balancedClose, Option.map_some, Option.map_map, Option.bind_eq_bind,
    Option.bind_some, Function.comp_def, Json.defaulted_eq_elim, Entries.elim_ite _ (hflag _),
    Entries.elim_optional _ hnumber]
  rfl

end Policy

namespace Settings

variable (settings : Settings)

theorem without_toJson : settings.toJson.without dropped =
    .record (settings.left dropped SettingValue.toJson .record) := by
  rw [left, ← Policy.without_toJson]
  exact (Json.without_record dropped _).trans
    (congrArg Json.record (Entries.remaining_map dropped id (Json.without dropped) _).symm)

/-- **What is left of the text of settings in JSON is read as those settings, with the ones that
were taken out at their defaults.** -/
theorem read?_compact_without :
    Settings.read? (settings.toJson.without dropped).compact = some (settings.reset dropped) := by
  have hchain : Chain.ofJson? (SettingValue.word settings.lattice.name).toJson =
      some settings.lattice := by
    cases settings.lattice <;> rfl
  have hflag : ∀ value, Json.bool? (SettingValue.flag value).toJson = some value := fun _ => rfl
  rw [Settings.read?, Json.read?_compact, Option.bind_eq_bind, Option.bind_some, without_toJson,
    ofJson?, Json.fields?_eq_lookup (settings.nodup_left ..)]
  simp only [List.map_cons, List.map_nil, lookup_left_lattice, lookup_left_keepGoing,
    lookup_left_monitor, ← Policy.without_toJson, Option.bind_eq_bind, Option.bind_some,
    Json.defaulted_eq_elim, Entries.elim_ite _ hchain, Entries.elim_ite _ (hflag _),
    Entries.elim_ite _ (Policy.ofJson?_without dropped _)]
  rfl

end Settings

end LeftInJson

end InfoFlow
