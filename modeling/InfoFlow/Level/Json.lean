import InfoFlow.Json.Value
import InfoFlow.Level.CategorySet
import InfoFlow.Level.Chain

/-!
# Levels in JSON

A level of a chain is written by its name, a set of categories as the number
whose bits it has.
-/

namespace InfoFlow

/-- Levels that can be written in JSON. `keptAside` says whether the value was
kept aside while the kind of a structure was looked for. -/
class JsonLevel (L : Type) where
  toJson : L → Json
  ofJson? (keptAside : Bool) : Json → Option L

namespace TwoLevel

/-- The level of this name, written exactly so. -/
def ofName? : String → Option TwoLevel
  | "LOW" => some low
  | "HIGH" => some high
  | _ => none

instance : JsonLevel TwoLevel where
  toJson level := .text level.name
  ofJson? keptAside json := (json.caseName? keptAside).bind ofName?

end TwoLevel

namespace ThreeLevel

/-- The level of this name, written exactly so. -/
def ofName? : String → Option ThreeLevel
  | "LOW" => some low
  | "MEDIUM" => some medium
  | "HIGH" => some high
  | _ => none

instance : JsonLevel ThreeLevel where
  toJson level := .text level.name
  ofJson? keptAside json := (json.caseName? keptAside).bind ofName?

end ThreeLevel

namespace CategorySet

/-- The set whose bits a number has. Bits are numbered below 32, and there must
be none outside the `n` categories. -/
def ofNumber? {n : Nat} (bits : Nat) : Option (CategorySet n) :=
  if bits < UInt32.size then (ofBits? bits).toOption else none

instance {n : Nat} : JsonLevel (CategorySet n) where
  toJson set := .natural set.bits
  ofJson? _ json := json.natural?.bind ofNumber?

end CategorySet

end InfoFlow
