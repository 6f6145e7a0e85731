import InfoFlow.Toml.Scalar
import InfoFlow.Toml.Text

/-!
# Reading TOML

A document is a sequence of lines: a key with its value, the header of a table,
or nothing. Reading cuts the text into such lines and builds the tables from
them one line after the other. Arrays and inline tables nest to 79 levels.
-/

namespace InfoFlow

namespace Toml

/-! ## Values -/

/-- The elements of an array, from the first blank after the bracket or comma
before them. A comma may follow the last element. `fuel` bounds their number. -/
def takeElements? (element : List Char → Option (Toml × List Char)) :
    (fuel : Nat) → List Char → Option (List Toml × List Char)
  | 0, _ => none
  | fuel + 1, text =>
      match skipLines false text with
      | ']' :: rest => some ([], rest)
      | text => do
          let (first, rest) ← element text
          match skipLines false rest with
          | ',' :: rest => do
              let (others, rest) ← takeElements? element fuel rest
              return (first :: others, rest)
          | ']' :: rest => return ([first], rest)
          | _ => none

/-- A key and its value, and what follows them. -/
def takePair? (value : List Char → Option (Toml × List Char)) (text : List Char) :
    Option (((List String × String) × Toml) × List Char) := do
  let (key, rest) ← takeKey? text
  match rest with
  | '=' :: rest => do
      let (value, rest) ← value (skipBlanks rest)
      return ((key, value), rest)
  | _ => none

/-- The entries of an inline table, of which there is at least one, added to
those before them. `fuel` bounds their number. -/
def takeEntries? (value : List Char → Option (Toml × List Char)) :
    (fuel : Nat) → TomlEntries → List Char → Option (TomlEntries × List Char)
  | 0, _, _ => none
  | fuel + 1, entries, text => do
      let (((path, key), value'), rest) ← takePair? value text
      let entries ← entries.assign? path key value'
      match skipBlanks rest with
      | ',' :: rest => takeEntries? value fuel entries rest
      | '\x7d' :: rest => return (entries, rest)
      | _ => none

/-- A value in which arrays and inline tables nest to `depth` at most. -/
def takeValue? : (depth : Nat) → List Char → Option (Toml × List Char)
  | 0, text =>
      match text with
      | '"' :: _ | '\'' :: _ => (takeString? text).map fun (s, rest) => (.string s, rest)
      | text => takeScalar? text
  | depth + 1, text =>
      match text with
      | '"' :: _ | '\'' :: _ => (takeString? text).map fun (s, rest) => (.string s, rest)
      | '[' :: rest =>
          (takeElements? (takeValue? depth) (rest.length + 1) rest).map
            fun (elements, rest) => (.array elements, rest)
      | '\x7b' :: rest =>
          match skipBlanks rest with
          | '\x7d' :: rest => some (.table .inlined [], rest)
          | rest =>
              (takeEntries? (takeValue? depth) (rest.length + 1) [] rest).map
                fun (entries, rest) => (.table .inlined entries, rest)
      | text => takeScalar? text

/-- How deeply arrays and inline tables nest. -/
def maxNesting : Nat := 79

/-! ## Lines -/

/-- A line of a document that says something. Keys are split into the parts
before the last one and the last one. -/
inductive Line where
  | assign (path : List String) (key : String) (value : Toml)
  | table (path : List String) (key : String)
  | row (path : List String) (key : String)

/-- The line that a text begins with, from its first character that is no
blank, and what follows the line. -/
def takeLine? (text : List Char) : Option (Line × List Char) :=
  match text with
  | '[' :: '[' :: rest => do
      let ((path, key), rest) ← takeKey? rest
      match rest with
      | ']' :: ']' :: rest => return (.row path key, ← afterLine? rest)
      | _ => none
  | '[' :: rest => do
      let ((path, key), rest) ← takeKey? rest
      match rest with
      | ']' :: rest => return (.table path key, ← afterLine? rest)
      | _ => none
  | text => do
      let (((path, key), value), rest) ← takePair? (takeValue? maxNesting) text
      return (.assign path key value, ← afterLine? rest)

/-- All lines of a text that say something. `fuel` bounds the number of lines. -/
def lines? : (fuel : Nat) → List Char → Option (List Line)
  | 0, _ => none
  | fuel + 1, text =>
      match skipLines false text with
      | [] => some []
      | text => do
          let (line, rest) ← takeLine? text
          return line :: (← lines? fuel rest)

/-! ## Documents -/

/-- A document that is being read: its entries, and the header of the table to
which the next lines belong, if there was one. -/
structure Document where
  entries : TomlEntries
  header : Option (List String × String)

namespace Document

def empty : Document := ⟨[], none⟩

/-- Add what a line says. -/
def add? (document : Document) : Line → Option Document
  | .assign path key value =>
      match document.header with
      | none => do
          return { document with entries := ← document.entries.assign? path key value }
      | some (tablePath, tableKey) => do
          let change := TomlEntries.inside? (·.assign? path key value)
          return { document with entries := ← document.entries.define? change tablePath tableKey }
  | .table path key => do
      return ⟨← document.entries.define? TomlEntries.openTable? path key, some (path, key)⟩
  | .row path key => do
      return ⟨← document.entries.define? TomlEntries.openRow? path key, some (path, key)⟩

end Document

/-- A mark of the byte order in front of a text does not count. -/
def dropByteOrderMark : List Char → List Char
  | '\ufeff' :: rest => rest
  | text => text

/-- The table that a document writes. -/
def read? (text : String) : Option Toml := do
  let text := dropByteOrderMark text.toList
  let lines ← lines? (text.length + 1) text
  let document ← lines.foldlM Document.add? .empty
  return .table .header document.entries

end Toml

end InfoFlow
