import InfoFlow.Json.Token

/-!
# Cutting a JSON text into tokens

The characters of a text are read one after the other. A `Mode` says what is
being read: nothing, a word, a number or a string. Words and numbers end with
the first character that cannot continue them, strings with their closing
quotation mark.
-/

namespace InfoFlow

/-- The value of a hexadecimal digit. -/
def hexDigit? (c : Char) : Option Nat :=
  if c.isDigit then some (c.toNat - '0'.toNat)
  else if 'a' ≤ c ∧ c ≤ 'f' then some (c.toNat - 'a'.toNat + 10)
  else if 'A' ≤ c ∧ c ≤ 'F' then some (c.toNat - 'A'.toNat + 10)
  else none

def digitValue (c : Char) : Nat := c.toNat - '0'.toNat

/-! ## Numbers -/

/-- How far a number literal has been read. -/
inductive NumeralStage where
  /-- Only the minus sign. -/
  | sign
  /-- A leading zero, which no digit may follow. -/
  | zero
  | whole
  | point
  | fraction
  /-- The letter of the exponent. -/
  | letter
  | exponentSign
  | exponent
deriving DecidableEq, Repr

/-- The part of a number literal that has been read: all digits before the
exponent, how many of them stand after the point, and the exponent. -/
structure Numeral where
  stage : NumeralStage
  negative : Bool
  digits : Nat
  places : Nat
  negativeExponent : Bool
  exponent : Nat
deriving DecidableEq, Repr

namespace Numeral

/-- Begin a number literal. -/
def start? (c : Char) : Option Numeral :=
  if c = '-' then some ⟨.sign, true, 0, 0, false, 0⟩
  else if c = '0' then some ⟨.zero, false, 0, 0, false, 0⟩
  else if c.isDigit then some ⟨.whole, false, digitValue c, 0, false, 0⟩
  else none

/-- Go on after the whole part: a point or the letter of the exponent. -/
def afterWhole (n : Numeral) (c : Char) : Option Numeral :=
  if c = '.' then some { n with stage := .point }
  else if c = 'e' ∨ c = 'E' then some { n with stage := .letter }
  else none

/-- Read one digit more of the exponent. -/
def addExponentDigit (n : Numeral) (c : Char) : Option Numeral :=
  if c.isDigit then
    some { n with stage := .exponent, exponent := 10 * n.exponent + digitValue c }
  else none

/-- Read one digit more after the point. -/
def addPlace (n : Numeral) (c : Char) : Option Numeral :=
  if c.isDigit then
    some { n with stage := .fraction, digits := 10 * n.digits + digitValue c, places := n.places + 1 }
  else none

/-- Read one character more, if it can continue the literal. -/
def next? (n : Numeral) (c : Char) : Option Numeral :=
  match n.stage with
  | .sign =>
      if c = '0' then some { n with stage := .zero }
      else if c.isDigit then some { n with stage := .whole, digits := digitValue c }
      else none
  | .zero => n.afterWhole c
  | .whole =>
      if c.isDigit then some { n with digits := 10 * n.digits + digitValue c }
      else n.afterWhole c
  | .point => n.addPlace c
  | .fraction =>
      if c = 'e' ∨ c = 'E' then some { n with stage := .letter } else n.addPlace c
  | .letter =>
      if c = '+' then some { n with stage := .exponentSign }
      else if c = '-' then some { n with stage := .exponentSign, negativeExponent := true }
      else n.addExponentDigit c
  | .exponentSign => n.addExponentDigit c
  | .exponent => n.addExponentDigit c

/-- The power of ten that the literal is written with. -/
def scale (n : Numeral) : Int :=
  let exponent : Int := n.exponent
  (if n.negativeExponent then -exponent else exponent) - n.places

/-- The number, if the literal may end here. -/
def number? (n : Numeral) : Option Number :=
  match n.stage with
  | .zero | .whole => some (.integer n.negative n.digits)
  | .fraction | .exponent => some (.decimal n.negative n.digits n.scale)
  | .sign | .point | .letter | .exponentSign => none

end Numeral

/-! ## Strings -/

/-- The part of a string literal that has been read: its characters, last one
first, the first half of a surrogate pair whose second half has to follow now,
and whether all halves so far were paired. -/
structure QuotedPart where
  chars : List Char
  half : Option Nat
  paired : Bool
deriving DecidableEq, Repr

namespace QuotedPart

/-- Nothing but the opening quotation mark. -/
def start : QuotedPart := ⟨[], none, true⟩

/-- Add a character. -/
def push (q : QuotedPart) (c : Char) : QuotedPart :=
  ⟨c :: q.chars, none, q.paired && q.half.isNone⟩

/-- The code point that two surrogates stand for. -/
def combine (first second : Nat) : Nat := 0x10000 + (first - 0xD800) * 0x400 + (second - 0xDC00)

/-- Add a 16-bit unit, which may be half of a surrogate pair. -/
def pushUnit (q : QuotedPart) (unit : Nat) : QuotedPart :=
  if 0xD800 ≤ unit ∧ unit < 0xDC00 then ⟨q.chars, some unit, q.paired && q.half.isNone⟩
  else if 0xDC00 ≤ unit ∧ unit < 0xE000 then
    match q.half with
    | some first => ⟨.ofNat (combine first unit) :: q.chars, none, q.paired⟩
    | none => ⟨q.chars, none, false⟩
  else q.push (.ofNat unit)

/-- The text of the literal, if it ends here; none if a half is unpaired. -/
def text? (q : QuotedPart) : Option String :=
  if q.paired && q.half.isNone then some (.ofList q.chars.reverse) else none

/-- The character that a letter after a backslash stands for. -/
def escaped? (c : Char) : Option Char :=
  match c with
  | '"' => some '"'
  | '\\' => some '\\'
  | '/' => some '/'
  | 'b' => some '\x08'
  | 'f' => some '\x0c'
  | 'n' => some '\n'
  | 'r' => some '\r'
  | 't' => some '\t'
  | _ => none

end QuotedPart

/-! ## The lexer -/

/-- What is being read. -/
inductive LexMode where
  /-- Nothing: the last token is complete. -/
  | idle
  /-- A word; its letters, last one first. -/
  | word (letters : List Char)
  | number (part : Numeral)
  | string (part : QuotedPart)
  /-- The character after a backslash. -/
  | escape (part : QuotedPart)
  /-- The hexadecimal digits of a unit: how many have to follow, and the value
  of those before. -/
  | unit (part : QuotedPart) (missing : Nat) (value : Nat)
deriving DecidableEq, Repr

/-- The tokens read so far, last one first, and what is being read now. -/
structure Lexer where
  mode : LexMode
  tokens : List Token
deriving DecidableEq, Repr

namespace Lexer

/-- Nothing has been read. -/
def start : Lexer := ⟨.idle, []⟩

def isBlank (c : Char) : Bool := c = ' ' || c = '\t' || c = '\n' || c = '\r'

/-- The token that is a word. -/
def wordToken? (letters : List Char) : Option Token :=
  match String.ofList letters.reverse with
  | "null" => some .null
  | "true" => some (.bool true)
  | "false" => some (.bool false)
  | _ => none

/-- Tokens of one character. -/
def markToken? (c : Char) : Option Token :=
  match c with
  | '\x7b' => some .openObject
  | '\x7d' => some .closeObject
  | '[' => some .openArray
  | ']' => some .closeArray
  | ':' => some .colon
  | ',' => some .comma
  | _ => none

/-- Read a character that begins a token or stands between two. -/
def begin? (tokens : List Token) (c : Char) : Option Lexer :=
  if isBlank c then some ⟨.idle, tokens⟩
  else match markToken? c with
    | some token => some ⟨.idle, token :: tokens⟩
    | none =>
        if c = '"' then some ⟨.string .start, tokens⟩
        else if c.isLower then some ⟨.word [c], tokens⟩
        else (Numeral.start? c).map fun part => ⟨.number part, tokens⟩

/-- Read one character. -/
def next? (lexer : Lexer) (c : Char) : Option Lexer :=
  match lexer.mode with
  | .idle => begin? lexer.tokens c
  | .word letters =>
      if c.isLower then some { lexer with mode := .word (c :: letters) }
      else do begin? ((← wordToken? letters) :: lexer.tokens) c
  | .number part =>
      match part.next? c with
      | some part => some { lexer with mode := .number part }
      | none => do begin? (.number (← part.number?) :: lexer.tokens) c
  | .string part =>
      if c = '"' then some ⟨.idle, .string part.text? :: lexer.tokens⟩
      else if c = '\\' then some { lexer with mode := .escape part }
      else if c.toNat < 0x20 then none
      else some { lexer with mode := .string (part.push c) }
  | .escape part =>
      if c = 'u' then some { lexer with mode := .unit part 4 0 }
      else (QuotedPart.escaped? c).map fun c => { lexer with mode := .string (part.push c) }
  | .unit part missing value =>
      (hexDigit? c).map fun digit =>
        let value := 16 * value + digit
        if missing ≤ 1 then { lexer with mode := .string (part.pushUnit value) }
        else { lexer with mode := .unit part (missing - 1) value }

/-- The tokens, if the text may end here. -/
def finish? (lexer : Lexer) : Option (List Token) :=
  match lexer.mode with
  | .idle => some lexer.tokens.reverse
  | .word letters => (wordToken? letters).map fun token => (token :: lexer.tokens).reverse
  | .number part => part.number?.map fun number => (.number number :: lexer.tokens).reverse
  | .string _ | .escape _ | .unit .. => none

end Lexer

/-- The tokens of a text. -/
def Token.read? (text : List Char) : Option (List Token) := do
  (← text.foldlM Lexer.next? Lexer.start).finish?

end InfoFlow
