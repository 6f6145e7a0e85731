import InfoFlow.Json.Value

/-!
# The tokens of JSON

A JSON value is written as a sequence of tokens. `Token.text` gives the
characters of a token and `Json.tokens` the tokens of a value.
-/

namespace InfoFlow

inductive Token where
  | openObject
  | closeObject
  | openArray
  | closeArray
  | colon
  | comma
  | null
  | bool (value : Bool)
  | number (value : Number)
  | string (text : Option String)
deriving DecidableEq, Repr

/-! ## Spelling -/

/-- The decimal digits of a number. -/
def decimalDigits (n : Nat) : List Char := Nat.toDigits 10 n

def signText (negative : Bool) : List Char := if negative then ['-'] else []

namespace Number

def text : Number → List Char
  | integer negative magnitude => signText negative ++ decimalDigits magnitude
  | decimal negative coefficient scale =>
      signText negative ++ decimalDigits coefficient ++ ['e'] ++ signText (scale < 0) ++
        decimalDigits scale.natAbs

end Number

namespace Quoted

/-- Four hexadecimal digits, in lower case. -/
def hexText (n : Nat) : List Char :=
  [n / 4096 % 16, n / 256 % 16, n / 16 % 16, n % 16].map Nat.digitChar

/-- How a character is written between quotation marks: quotation marks,
backslashes and control characters are escaped, with a letter where there is
one. -/
def charText (c : Char) : List Char :=
  if c = '"' then ['\\', '"']
  else if c = '\\' then ['\\', '\\']
  else if c = '\x08' then ['\\', 'b']
  else if c = '\x0c' then ['\\', 'f']
  else if c = '\n' then ['\\', 'n']
  else if c = '\r' then ['\\', 'r']
  else if c = '\t' then ['\\', 't']
  else if c.toNat < 0x20 then '\\' :: 'u' :: hexText c.toNat
  else [c]

/-- A string literal. -/
def text (content : String) : List Char :=
  '"' :: content.toList.flatMap charText ++ ['"']

end Quoted

/-- The characters of a token. A literal that denotes no text is written as a
lone surrogate. -/
def Token.text : Token → List Char
  | openObject => ['\x7b']
  | closeObject => ['\x7d']
  | openArray => ['[']
  | closeArray => [']']
  | colon => [':']
  | comma => [',']
  | null => ['n', 'u', 'l', 'l']
  | bool true => ['t', 'r', 'u', 'e']
  | bool false => ['f', 'a', 'l', 's', 'e']
  | number value => value.text
  | string (some content) => Quoted.text content
  | string none => ['"', '\\', 'u', 'd', '8', '0', '0', '"']

/-! ## The tokens of a value -/

namespace Json

mutual

def tokens : Json → List Token
  | null => [.null]
  | bool value => [.bool value]
  | number value => [.number value]
  | string text => [.string text]
  | array elements => .openArray :: elementTokens elements ++ [.closeArray]
  | object members => .openObject :: memberTokens members ++ [.closeObject]

/-- The tokens of elements, with commas between them. -/
def elementTokens : List Json → List Token
  | [] => []
  | element :: elements => tokens element ++ moreElementTokens elements

/-- The tokens of elements, each after a comma. -/
def moreElementTokens : List Json → List Token
  | [] => []
  | element :: elements => .comma :: tokens element ++ moreElementTokens elements

/-- The tokens of members, with commas between them. -/
def memberTokens : List (Option String × Json) → List Token
  | [] => []
  | member :: members => oneMemberTokens member ++ moreMemberTokens members

/-- The tokens of members, each after a comma. -/
def moreMemberTokens : List (Option String × Json) → List Token
  | [] => []
  | member :: members => .comma :: oneMemberTokens member ++ moreMemberTokens members

def oneMemberTokens : Option String × Json → List Token
  | (key, value) => .string key :: .colon :: tokens value

end

end Json

end InfoFlow
