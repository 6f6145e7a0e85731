import InfoFlow.Settings
import InfoFlow.Toml.Reader

/-!
# Settings in TOML

Settings are written one to a line, those of the monitor in a table of their
own behind the others. Reading takes any TOML document; every field may be left
out and then has its default.
-/

namespace InfoFlow

/-! ## Writing -/

/-- A value of a setting. -/
inductive SettingValue where
  | flag (value : Bool)
  | number (value : Nat)
  /-- A text that holds nothing that has to be escaped. -/
  | word (value : String)
deriving DecidableEq, Repr

def SettingValue.text : SettingValue → String
  | flag value => toString value
  | number value => toString value
  | word value => s!"\"{value}\""

/-- A line of a configuration file. -/
inductive SettingLine where
  | entry (key : String) (value : SettingValue)
  | header (table : String)
  | blank
deriving DecidableEq, Repr

def SettingLine.text : SettingLine → String
  | entry key value => s!"{key} = {value.text}\n"
  | header table => s!"[{table}]\n"
  | blank => "\n"

namespace Policy

/-- Whether the nesting limit is a number that TOML can write: one below
`2 ^ 63`. -/
def isWritable (policy : Policy) : Bool :=
  policy.maxDepth.all fun depth => (depth.toNat : Int) < Toml.integerBound

/-- The lines of a configuration; a nesting limit that is not set has none. -/
def settingLines (policy : Policy) : List SettingLine :=
  [.entry "auto_register_heap" (.flag policy.autoRegister)] ++
    (policy.maxDepth.map fun depth =>
      SettingLine.entry "max_scope_depth" (.number depth.toNat)).toList ++
    [.entry "require_balanced_close" (.flag policy.balancedClose)]

/-- The text of a configuration in TOML, if there is one. -/
def tomlText? (policy : Policy) : Option String :=
  if policy.isWritable then some (String.join (policy.settingLines.map SettingLine.text)) else none

/-- The configuration that a TOML value writes. -/
def ofToml? (toml : Toml) : Option Policy := do
  let [register, depth, balanced] ←
    toml.fields? ["auto_register_heap", "max_scope_depth", "require_balanced_close"] | none
  let default : Policy := {}
  return {
    autoRegister := ← Toml.defaulted default.autoRegister Toml.boolean? register
    maxDepth := ←
      Toml.defaulted default.maxDepth (fun value => value.word?.map some) depth
    balancedClose :=
      ← Toml.defaulted default.balancedClose Toml.boolean? balanced }

end Policy

namespace Settings

/-- The lines of a configuration file. -/
def settingLines (settings : Settings) : List SettingLine :=
  [.entry "lattice" (.word settings.lattice.name), .entry "keep_going" (.flag settings.keepGoing),
    .blank, .header "monitor"] ++ settings.monitor.settingLines

/-- The text of settings in TOML, if there is one. -/
def tomlText? (settings : Settings) : Option String :=
  if settings.monitor.isWritable then
    some (String.join (settings.settingLines.map SettingLine.text))
  else none

/-- The settings that a TOML value writes. -/
def ofToml? (toml : Toml) : Option Settings := do
  let [lattice, keepGoing, monitor] ← toml.fields? ["lattice", "keep_going", "monitor"] | none
  let default : Settings := {}
  return {
    lattice := ←
      Toml.defaulted default.lattice (fun value => value.caseName?.bind Chain.ofName?) lattice
    keepGoing := ← Toml.defaulted default.keepGoing Toml.boolean? keepGoing
    monitor := ← Toml.defaulted default.monitor Policy.ofToml? monitor }

/-- The settings that the text of a configuration file writes. -/
def readToml? (text : String) : Option Settings := do
  ofToml? (← Toml.read? text)

end Settings

end InfoFlow
