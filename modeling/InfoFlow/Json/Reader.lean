import InfoFlow.Json.Lexer

/-!
# Reading JSON

The tokens of a text are put together one after the other. The arrays and
objects that are open stand on a stack, with what they hold so far; a value
that is complete goes into the innermost of them.
-/

namespace InfoFlow

/-- An open array or object. -/
inductive OpenJson where
  /-- An array, and its elements so far, last one first. -/
  | array (elements : List Json)
  /-- An object, its members so far, last one first, and the key of the member
  whose value is being read. -/
  | object (members : List (Option String × Json)) (key : Option String)

/-- What has been read, and so what may follow. The list holds the open arrays
and objects, innermost first. -/
inductive JsonReader where
  /-- A value must follow. -/
  | atValue (outer : List OpenJson)
  /-- An array was opened: its first element or its end follows. -/
  | atFirstElement (outer : List OpenJson)
  /-- An element is complete: a comma or the end of the array follows. -/
  | afterElement (elements : List Json) (outer : List OpenJson)
  /-- An object was opened: its first key or its end follows. -/
  | atFirstKey (outer : List OpenJson)
  /-- A member must follow, beginning with its key. -/
  | atKey (members : List (Option String × Json)) (outer : List OpenJson)
  /-- A key has been read: a colon must follow. -/
  | atColon (members : List (Option String × Json)) (key : Option String) (outer : List OpenJson)
  /-- A member is complete: a comma or the end of the object follows. -/
  | afterMember (members : List (Option String × Json)) (outer : List OpenJson)
  /-- The whole value is complete: nothing may follow. -/
  | complete (json : Json)

namespace JsonReader

/-- Put a complete value in its place. -/
def deliver (json : Json) : List OpenJson → JsonReader
  | [] => complete json
  | .array elements :: outer => afterElement (json :: elements) outer
  | .object members key :: outer => afterMember ((key, json) :: members) outer

/-- Read the first token of a value. -/
def beginValue? (outer : List OpenJson) : Token → Option JsonReader
  | .null => some (deliver .null outer)
  | .bool value => some (deliver (.bool value) outer)
  | .number value => some (deliver (.number value) outer)
  | .string text => some (deliver (.string text) outer)
  | .openArray => some (atFirstElement outer)
  | .openObject => some (atFirstKey outer)
  | .closeArray | .closeObject | .colon | .comma => none

/-- Read one token. -/
def next? (reader : JsonReader) (token : Token) : Option JsonReader :=
  match reader, token with
  | atValue outer, token => beginValue? outer token
  | atFirstElement outer, .closeArray => some (deliver (.array []) outer)
  | atFirstElement outer, token => beginValue? (.array [] :: outer) token
  | afterElement elements outer, .comma => some (atValue (.array elements :: outer))
  | afterElement elements outer, .closeArray => some (deliver (.array elements.reverse) outer)
  | atFirstKey outer, .closeObject => some (deliver (.object []) outer)
  | atFirstKey outer, .string text => some (atColon [] text outer)
  | atKey members outer, .string text => some (atColon members text outer)
  | atColon members key outer, .colon => some (atValue (.object members key :: outer))
  | afterMember members outer, .comma => some (atKey members outer)
  | afterMember members outer, .closeObject => some (deliver (.object members.reverse) outer)
  | _, _ => none

end JsonReader

namespace Json

/-- The value that these tokens write. -/
def ofTokens? (tokens : List Token) : Option Json := do
  match ← tokens.foldlM JsonReader.next? (.atValue []) with
  | .complete json => some json
  | _ => none

/-- The value that a text writes. -/
def read? (text : String) : Option Json := do
  ofTokens? (← Token.read? text.toList)

end Json

end InfoFlow
