import InfoFlow.Double

/-!
# JSON values

A JSON value as it is written: objects keep their members in order and with
repetitions, and numbers keep whether they are written as integers.

A string literal may hold half of a surrogate pair, as in `"\ud800"`, and then
denotes no text. Such literals are syntactically fine, so the value of a string
and the key of a member are optional texts.
-/

namespace InfoFlow

/-- A number literal, by what it denotes. -/
inductive Number where
  /-- Written with neither a fraction nor an exponent. -/
  | integer (negative : Bool) (magnitude : Nat)
  /-- Denotes `coefficient · 10 ^ scale`, up to sign. -/
  | decimal (negative : Bool) (coefficient : Nat) (scale : Int)
deriving DecidableEq, Repr

inductive Json where
  | null
  | bool (value : Bool)
  | number (value : Number)
  | string (text : Option String)
  | array (elements : List Json)
  | object (members : List (Option String × Json))
deriving Repr

namespace Json

/-! ## Writing values down -/

/-- The string literal of a text. -/
def text (text : String) : Json := .string (some text)

/-- The literal of a natural number. -/
def natural (n : Nat) : Json := .number (.integer false n)

/-- The object with these members. -/
def record (fields : List (String × Json)) : Json :=
  .object (fields.map fun (key, value) => (some key, value))

/-! ## Taking values apart -/

def text? : Json → Option String
  | string text => text
  | _ => none

def bool? : Json → Option Bool
  | bool value => some value
  | _ => none

/-- A number written as an integer without sign. -/
def natural? : Json → Option Nat
  | number (.integer false n) => some n
  | _ => none

/-- A number written as an integer without sign, below `2 ^ 64`. -/
def word? (json : Json) : Option UInt64 := do
  let n ← json.natural?
  if n < UInt64.size then some (.ofNat n) else none

/-- The elements of an array, each taken apart by `decode`. -/
def list? {α : Type} (decode : Json → Option α) : Json → Option (List α)
  | array elements => elements.mapM decode
  | _ => none

/-! ## Structures

A structure with named fields is written as an object, or as an array that
holds the fields in their order. In an object, members with other keys are
passed over, and no field may be given twice; in an array, the last fields may
be left off.
-/

/-- The values given for the fields with these keys, in the order of the keys. -/
def fields? (keys : List String) : Json → Option (List (Option Json))
  | object members =>
      if members.all (·.1.isSome) then
        keys.mapM fun key =>
          match members.filter (·.1 = some key) with
          | [] => some none
          | [(_, value)] => some (some value)
          | _ => none
      else none
  | array elements =>
      if elements.length ≤ keys.length then
        some (elements.map some ++ List.replicate (keys.length - elements.length) none)
      else none
  | _ => none

/-- A field that has to be given. -/
def required {α : Type} (decode : Json → Option α) (field : Option Json) : Option α :=
  field.bind decode

/-- A field that may be left out, and then has a default. -/
def defaulted {α : Type} (default : α) (decode : Json → Option α) : Option Json → Option α
  | some value => decode value
  | none => some default

/-- A structure with a `kind` among its fields: the value of the kind, and the
structure of the other fields. In an array the kind comes first. -/
def tagged? : Json → Option (Json × Json)
  | object members =>
      match members.filter (·.1 = some "kind") with
      | [(_, kind)] => some (kind, .object (members.filter (·.1 ≠ some "kind")))
      | _ => none
  | array (kind :: fields) => some (kind, .array fields)
  | _ => none

/-! ## Values that are kept aside

While the kind of a structure is looked for, its fields are kept aside as
values. That asks more of them than passing over them does: strings must denote
texts, numbers must have a double-precision value, and the nesting of arrays
and objects is limited.
-/

end Json

/-- Whether a number has a double-precision value, that is, does not overflow.
Integers that fit a machine word are kept as they are. -/
def Number.isFinite : Number → Bool
  | integer _ magnitude => magnitude < UInt64.size || Double.isProductInRange magnitude 0
  | decimal _ coefficient scale => Double.isProductInRange coefficient scale

namespace Json

mutual

/-- Whether a value can be kept aside where arrays and objects may nest to
`depth`. -/
def isKeepable (depth : Nat) : Json → Bool
  | null => true
  | bool _ => true
  | number value => value.isFinite
  | string text => text.isSome
  | array elements => depth != 0 && areKeepable (depth - 1) elements
  | object members => depth != 0 && areMembersKeepable (depth - 1) members

def areKeepable (depth : Nat) : List Json → Bool
  | [] => true
  | element :: elements => isKeepable depth element && areKeepable depth elements

def areMembersKeepable (depth : Nat) : List (Option String × Json) → Bool
  | [] => true
  | member :: members => isMemberKeepable depth member && areMembersKeepable depth members

def isMemberKeepable (depth : Nat) : Option String × Json → Bool
  | (key, value) => key.isSome && isKeepable depth value

end

/-- The name of a case that has no fields: a string, or an object with the
name as its only key and null as its value. Among values kept aside, an empty
object may stand for that null. -/
def caseName? (keptAside : Bool) : Json → Option String
  | string text => text
  | object [(name, null)] => name
  | object [(name, object [])] => if keptAside then name else none
  | _ => none

end Json

end InfoFlow
