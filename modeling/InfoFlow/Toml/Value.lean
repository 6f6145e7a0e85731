/-!
# TOML values

What a TOML document holds, as far as settings need it: floats and dates are
recognised, but what they denote is not kept.

A table remembers how it came about, because that decides what may still be
added to it:

* an *inline* table `{ … }` is complete;
* a table with a *header* `[a.b]` takes the lines below its header, and tables
  with longer headers;
* a table *implied* by a longer header may still get a header of its own;
* a *dotted* table, made by a key such as `a.b`, takes more keys of that form.
-/

namespace InfoFlow

inductive TableOrigin where
  | inlined
  | header
  | implied
  | dotted
deriving DecidableEq, Repr

inductive Toml where
  | string (value : String)
  | integer (value : Int)
  | boolean (value : Bool)
  | float
  | dateTime
  | array (elements : List Toml)
  | table (origin : TableOrigin) (entries : List (String × Toml))
  /-- An array of tables with headers `[[a]]`; each row holds one table. -/
  | tables (rows : List (List (String × Toml)))
deriving Repr

/-- The entries of a table, in the order in which they were made. -/
abbrev TomlEntries := List (String × Toml)

namespace Toml

/-! ## Taking values apart -/

def text? : Toml → Option String
  | string value => some value
  | _ => none

def boolean? : Toml → Option Bool
  | boolean value => some value
  | _ => none

/-- An integer without sign; TOML's integers are below `2 ^ 63`. -/
def word? : Toml → Option UInt64
  | integer (.ofNat n) => some (.ofNat n)
  | _ => none

/-- A value with nothing in it, which stands for the missing fields of a case. -/
def isEmpty : Toml → Bool
  | array [] => true
  | table _ [] => true
  | _ => false

/-- The name of a case that has no fields: a text, or the only key of a table,
with an empty value. -/
def caseName? : Toml → Option String
  | string name => some name
  | table _ [(name, value)] => if value.isEmpty then some name else none
  | _ => none

/-- The values given for the fields of a structure with these keys, in the order
of the keys. A structure is written as a table, where other keys are passed
over, or as an array that begins with the fields in their order and may leave
the last of them off. A date stands for a structure with none of the fields. -/
def fields? (keys : List String) : Toml → Option (List (Option Toml))
  | table _ entries => some (keys.map (entries.lookup ·))
  | array elements =>
      some ((elements.map some ++ List.replicate keys.length none).take keys.length)
  | tables rows =>
      some ((rows.map (some ∘ table .header) ++ List.replicate keys.length none).take keys.length)
  | dateTime => some (keys.map fun _ => none)
  | _ => none

/-- A field that may be left out, and then has a default. -/
def defaulted {α : Type} (default : α) (decode : Toml → Option α) : Option Toml → Option α
  | some value => decode value
  | none => some default

end Toml

/-! ## Building tables

All functions below act on the entries of a table and fail where the rules for
redefinition forbid what is asked.
-/

namespace TomlEntries

/-- Replace the value of a key that is there. -/
def replace (entries : TomlEntries) (key : String) (value : Toml) : TomlEntries :=
  entries.map fun entry => if entry.1 = key then (key, value) else entry

/-- Change the last row of an array of tables. -/
def changeLastRow? (change : TomlEntries → Option TomlEntries) :
    List TomlEntries → Option (List TomlEntries)
  | [] => none
  | [row] => (change row).map ([·])
  | row :: rows => (changeLastRow? change rows).map (row :: ·)

/-- Give a key a value. With a path before the key, the tables on the path must
not have a header of their own, and the last of them must be a dotted one. -/
def assign? (entries : TomlEntries) : (path : List String) → (key : String) → Toml →
    Option TomlEntries
  | [], key, value =>
      if (entries.lookup key).isSome then none else some (entries ++ [(key, value)])
  | first :: path, key, value =>
      match entries.lookup first with
      | none => do
          let inner ← assign? [] path key value
          return entries ++ [(first, .table .dotted inner)]
      | some (.table origin inner) =>
          if origin = .dotted ∨ origin = .implied ∧ path ≠ [] then do
            return entries.replace first (.table origin (← assign? inner path key value))
          else none
      | some (.tables rows) =>
          if path = [] then none
          else do
            return entries.replace first
              (.tables (← changeLastRow? (assign? · path key value) rows))
      | some _ => none

/-- Change the entries of the table that a header names; tables on the way that
are not there yet are implied. `make` gives the new value of the last key from
its value so far. -/
def define? (make : Option Toml → Option Toml) (entries : TomlEntries) :
    (path : List String) → (key : String) → Option TomlEntries
  | [], key =>
      match entries.lookup key with
      | none => do return entries ++ [(key, ← make none)]
      | some value => do return entries.replace key (← make (some value))
  | first :: path, key =>
      match entries.lookup first with
      | none => do return entries ++ [(first, .table .implied (← define? make [] path key))]
      | some (.table origin inner) =>
          if origin = .inlined then none
          else do return entries.replace first (.table origin (← define? make inner path key))
      | some (.tables rows) => do
          return entries.replace first
            (.tables (← changeLastRow? (define? make · path key) rows))
      | some _ => none

/-- A table gets its header: it must be new, or implied so far. -/
def openTable? : Option Toml → Option Toml
  | none => some (.table .header [])
  | some (.table .implied entries) => some (.table .header entries)
  | some _ => none

/-- An array of tables gets one row more. -/
def openRow? : Option Toml → Option Toml
  | none => some (.tables [[]])
  | some (.tables rows) => some (.tables (rows ++ [[]]))
  | some _ => none

/-- Change the entries of a table with a header, or those of the last row of an
array of tables. -/
def inside? (change : TomlEntries → Option TomlEntries) : Option Toml → Option Toml
  | some (.table origin entries) => (change entries).map (.table origin)
  | some (.tables rows) => (changeLastRow? change rows).map .tables
  | _ => none

end TomlEntries

end InfoFlow
