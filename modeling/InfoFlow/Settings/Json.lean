import InfoFlow.Json.Layout
import InfoFlow.Json.Reader
import InfoFlow.Settings

/-!
# Settings in JSON

Every field may be left out and then has its default. A nesting limit that is
not set is not written; it may be given as null.
-/

namespace InfoFlow

namespace Policy

def toJson (policy : Policy) : Json :=
  .record
    ([("auto_register_heap", .bool policy.autoRegister)] ++
      (policy.maxDepth.map fun depth =>
        ("max_scope_depth", Json.natural depth.toNat)).toList ++
      [("require_balanced_close", .bool policy.balancedClose)])

/-- A nesting limit, or null for none. -/
def limit? : Json → Option (Option UInt64)
  | .null => some none
  | json => json.word?.map some

def ofJson? (json : Json) : Option Policy := do
  let [register, depth, balanced] ←
    json.fields? ["auto_register_heap", "max_scope_depth", "require_balanced_close"] | none
  let default : Policy := {}
  return {
    autoRegister := ← Json.defaulted default.autoRegister Json.bool? register
    maxDepth := ← Json.defaulted default.maxDepth limit? depth
    balancedClose := ← Json.defaulted default.balancedClose Json.bool? balanced }

/-- The configuration that a text writes. -/
def read? (text : String) : Option Policy := do
  ofJson? (← Json.read? text)

/-- The text of a configuration, in one line. -/
def jsonText (policy : Policy) : String := policy.toJson.compact

end Policy

namespace Chain

def ofJson? (json : Json) : Option Chain := (json.caseName? false).bind ofName?

end Chain

namespace Settings

def toJson (settings : Settings) : Json :=
  .record
    [("lattice", .text settings.lattice.name), ("keep_going", .bool settings.keepGoing),
      ("monitor", settings.monitor.toJson)]

def ofJson? (json : Json) : Option Settings := do
  let [lattice, keepGoing, monitor] ← json.fields? ["lattice", "keep_going", "monitor"] | none
  let default : Settings := {}
  return {
    lattice := ← Json.defaulted default.lattice Chain.ofJson? lattice
    keepGoing := ← Json.defaulted default.keepGoing Json.bool? keepGoing
    monitor := ← Json.defaulted default.monitor Policy.ofJson? monitor }

/-- The settings that a text writes. -/
def read? (text : String) : Option Settings := do
  ofJson? (← Json.read? text)

/-- The text of settings, in one line. -/
def jsonText (settings : Settings) : String := settings.toJson.compact

end Settings

end InfoFlow
