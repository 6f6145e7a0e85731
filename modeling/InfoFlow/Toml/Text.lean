import InfoFlow.Json.Lexer

/-!
# Blanks, comments, strings and keys in TOML

Every function here takes a text and answers with what it found at its
beginning and with the text that follows.
-/

namespace InfoFlow.Toml

/-! ## Blanks -/

def isBlank (c : Char) : Bool := c = ' ' || c = '\t'

/-- The characters that may stand in comments and strings: all but the control
characters other than the tab. -/
def isPlain (c : Char) : Bool := c = '\t' || (0x20 ≤ c.toNat && c.toNat ≠ 0x7F)

def skipBlanks (text : List Char) : List Char := text.dropWhile isBlank

/-- What follows the blanks and the comment at the beginning of a text. -/
def skipComment (text : List Char) : List Char :=
  match skipBlanks text with
  | '#' :: rest => rest.dropWhile isPlain
  | rest => rest

/-- What follows a line break. -/
def afterNewLine? : List Char → Option (List Char)
  | '\n' :: rest => some rest
  | '\r' :: '\n' :: rest => some rest
  | _ => none

/-- What follows the end of a line: blanks, perhaps a comment, and a line break
or the end of the text. -/
def afterLine? (text : List Char) : Option (List Char) :=
  match skipComment text with
  | [] => some []
  | rest => afterNewLine? rest

/-- What follows any number of blanks, line breaks and comments. -/
def skipLines (inComment : Bool) : List Char → List Char
  | [] => []
  | c :: rest =>
      if c = '\n' then skipLines false rest
      else if c = '\r' then
        match rest with
        | '\n' :: rest => skipLines false rest
        | rest => c :: rest
      else if inComment then if isPlain c then skipLines true rest else c :: rest
      else if c = '#' then skipLines true rest
      else if isBlank c then skipLines false rest
      else c :: rest

/-! ## Strings -/

/-- The character that a letter after a backslash stands for. -/
def escaped? (letter : Char) : Option Char :=
  match letter with
  | 'b' => some '\x08'
  | 't' => some '\t'
  | 'n' => some '\n'
  | 'f' => some '\x0c'
  | 'r' => some '\r'
  | '"' => some '"'
  | '\\' => some '\\'
  | _ => none

/-- The character with the code point that these hexadecimal digits write. -/
def codePoint? (digits : List Char) : Option Char := do
  let values ← digits.mapM hexDigit?
  let n := values.foldl (fun n digit => 16 * n + digit) 0
  if n < 0xD800 ∨ 0xE000 ≤ n ∧ n < 0x110000 then some (.ofNat n) else none

/-- A string and the text that follows it. -/
abbrev Taken := Option (List Char × List Char)

/-- The string goes on with this character. -/
def Taken.push (c : Char) (taken : Taken) : Taken := taken.map fun (chars, rest) => (c :: chars, rest)

/-- A string in quotation marks, from the character after the first mark. -/
def takeBasic : List Char → Taken
  | [] => none
  | '"' :: rest => some ([], rest)
  | '\\' :: 'u' :: a :: b :: c :: d :: rest => do
      Taken.push (← codePoint? [a, b, c, d]) (takeBasic rest)
  | '\\' :: 'U' :: a :: b :: c :: d :: e :: f :: g :: h :: rest => do
      Taken.push (← codePoint? [a, b, c, d, e, f, g, h]) (takeBasic rest)
  | '\\' :: letter :: rest => do Taken.push (← escaped? letter) (takeBasic rest)
  | c :: rest => if isPlain c && c ≠ '\\' then Taken.push c (takeBasic rest) else none

/-- A string in apostrophes, from the character after the first one. -/
def takeLiteral : List Char → Taken
  | [] => none
  | '\'' :: rest => some ([], rest)
  | c :: rest => if isPlain c then Taken.push c (takeLiteral rest) else none

/-- A string over several lines in apostrophes, from its first character. Up to
two apostrophes may stand right before the closing three. -/
def takeLongLiteral : List Char → Taken
  | [] => none
  | '\'' :: '\'' :: '\'' :: '\'' :: '\'' :: rest => some (['\'', '\''], rest)
  | '\'' :: '\'' :: '\'' :: '\'' :: rest => some (['\''], rest)
  | '\'' :: '\'' :: '\'' :: rest => some ([], rest)
  | '\r' :: '\n' :: rest => Taken.push '\n' (takeLongLiteral rest)
  | c :: rest =>
      if isPlain c || c = '\n' then Taken.push c (takeLongLiteral rest) else none

/-- A string over several lines in quotation marks, from its first character.
Up to two marks may stand right before the closing three. A backslash at the
end of a line skips the line break and all blanks and line breaks after it;
`skipping` says that this is going on. -/
def takeLongBasic (skipping : Bool) : List Char → Taken
  | [] => none
  | '"' :: '"' :: '"' :: '"' :: '"' :: rest => some (['"', '"'], rest)
  | '"' :: '"' :: '"' :: '"' :: rest => some (['"'], rest)
  | '"' :: '"' :: '"' :: rest => some ([], rest)
  | '\r' :: '\n' :: rest =>
      if skipping then takeLongBasic true rest
      else Taken.push '\n' (takeLongBasic false rest)
  | '\\' :: 'u' :: a :: b :: c :: d :: rest => do
      Taken.push (← codePoint? [a, b, c, d]) (takeLongBasic false rest)
  | '\\' :: 'U' :: a :: b :: c :: d :: e :: f :: g :: h :: rest => do
      Taken.push (← codePoint? [a, b, c, d, e, f, g, h]) (takeLongBasic false rest)
  | '\\' :: letter :: rest =>
      if isBlank letter || letter = '\n' || letter = '\r' then
        if (afterNewLine? (skipBlanks (letter :: rest))).isSome then
          takeLongBasic true rest
        else none
      else do Taken.push (← escaped? letter) (takeLongBasic false rest)
  | c :: rest =>
      if skipping && (isBlank c || c = '\n') then takeLongBasic true rest
      else if isPlain c && c ≠ '\\' || c = '\n' then Taken.push c (takeLongBasic false rest)
      else none

/-- A line break right after the opening marks does not count. -/
def dropFirstNewLine (text : List Char) : List Char := (afterNewLine? text).getD text

/-- A string of any of the four forms. -/
def takeString? (text : List Char) : Option (String × List Char) :=
  let taken : Taken := match text with
    | '"' :: '"' :: '"' :: rest => takeLongBasic false (dropFirstNewLine rest)
    | '\'' :: '\'' :: '\'' :: rest => takeLongLiteral (dropFirstNewLine rest)
    | '"' :: rest => takeBasic rest
    | '\'' :: rest => takeLiteral rest
    | _ => none
  taken.map fun (chars, rest) => (.ofList chars, rest)

/-! ## Keys -/

def isKeyChar (c : Char) : Bool := c.isAlphanum || c = '_' || c = '-'

/-- One part of a key. -/
def takeKeyPart? (text : List Char) : Option (String × List Char) :=
  match text with
  | '"' :: rest => (takeBasic rest).map fun (chars, rest) => (.ofList chars, rest)
  | '\'' :: rest => (takeLiteral rest).map fun (chars, rest) => (.ofList chars, rest)
  | text =>
      match text.takeWhile isKeyChar with
      | [] => none
      | chars => some (.ofList chars, text.dropWhile isKeyChar)

/-- The greatest number of parts of a key. -/
def maxKeyParts : Nat := 79

/-- At most `most` parts of a key with points between them, and what follows
them and the blanks behind. -/
def takeKeyParts? : (most : Nat) → List Char → Option (List String × List Char)
  | 0, _ => none
  | most + 1, text => do
      let (part, rest) ← takeKeyPart? (skipBlanks text)
      match skipBlanks rest with
      | '.' :: rest => do
          let (parts, rest) ← takeKeyParts? most rest
          return (part :: parts, rest)
      | rest => return ([part], rest)

/-- A key, as the parts before the last one and the last one, and what follows
it and the blanks behind. -/
def takeKey? (text : List Char) : Option ((List String × String) × List Char) := do
  let (parts, rest) ← takeKeyParts? maxKeyParts text
  return ((parts.dropLast, ← parts.getLast?), rest)

end InfoFlow.Toml
