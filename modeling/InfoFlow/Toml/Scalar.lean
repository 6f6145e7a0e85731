import InfoFlow.Double
import InfoFlow.Toml.Value

/-!
# Numbers, dates and truth values in TOML

A value that is neither a string nor an array nor an inline table is one run of
letters, digits and the marks `+ - _ . :`, except that a blank may stand between
a date and a time. This module tells which runs are values.
-/

namespace InfoFlow.Toml

/-- The characters of numbers, dates and words. -/
def isScalarChar (c : Char) : Bool :=
  c.isAlphanum || c = '+' || c = '-' || c = '_' || c = '.' || c = ':'

/-! ## Digits -/

/-- Digits with single underscores between them; the answer is without the
underscores. -/
def ungroup? (isDigit : Char → Bool) : List Char → Option (List Char)
  | [] => none
  | c :: rest =>
      if isDigit c then
        match rest with
        | [] => some [c]
        | '_' :: rest => (ungroup? isDigit rest).map (c :: ·)
        | rest => (ungroup? isDigit rest).map (c :: ·)
      else none

/-- The digits of a whole number: a zero stands in front only alone. -/
def wholeDigits? (text : List Char) : Option (List Char) :=
  match text with
  | ['0'] => some text
  | '0' :: _ => none
  | _ => ungroup? Char.isDigit text

/-- The sign in front, and what follows it. -/
def takeSign : List Char → Bool × List Char
  | '-' :: rest => (true, rest)
  | '+' :: rest => (false, rest)
  | text => (false, text)

/-! ## Integers -/

def isHexDigit (c : Char) : Bool :=
  c.isDigit || ('a' ≤ c && c ≤ 'f') || ('A' ≤ c && c ≤ 'F')

def isOctalDigit (c : Char) : Bool := '0' ≤ c && c ≤ '7'

def isBinaryDigit (c : Char) : Bool := c = '0' || c = '1'

/-- The value of a digit of a number written to base 16 or less. -/
def digitOf (c : Char) : Nat :=
  if c.isDigit then c.toNat - '0'.toNat else c.toLower.toNat - 'a'.toNat + 10

def ofDigits (base : Nat) (digits : List Char) : Nat :=
  digits.foldl (fun value c => base * value + digitOf c) 0

/-- The bound of 64-bit integers, `2 ^ 63`. -/
def integerBound : Int := 0x8000000000000000

/-- A number in the range of 64-bit integers. -/
def inRange? (value : Int) : Option Toml :=
  if -integerBound ≤ value ∧ value < integerBound then some (.integer value) else none

def integer? (text : List Char) : Option Toml :=
  match text with
  | '0' :: 'x' :: digits => do inRange? (ofDigits 16 (← ungroup? isHexDigit digits))
  | '0' :: 'o' :: digits => do inRange? (ofDigits 8 (← ungroup? isOctalDigit digits))
  | '0' :: 'b' :: digits => do inRange? (ofDigits 2 (← ungroup? isBinaryDigit digits))
  | text => do
      let (negative, whole) := takeSign text
      let magnitude : Int := ofDigits 10 (← wholeDigits? whole)
      inRange? (if negative then -magnitude else magnitude)

/-! ## Floats -/

/-- The exponent of a float. -/
def exponent? (text : List Char) : Option Int := do
  let (negative, digits) := takeSign text
  let magnitude : Int := ofDigits 10 (← ungroup? Char.isDigit digits)
  return if negative then -magnitude else magnitude

/-- A float that is written with a point or an exponent. One above the greatest
double is refused. -/
def isDecimalFloat (text : List Char) : Bool :=
  let (negative, body) := takeSign text
  let mantissa := body.takeWhile fun c => c ≠ 'e' && c ≠ 'E'
  let whole := mantissa.takeWhile (· ≠ '.')
  let fraction? : Option (List Char) :=
    match mantissa.drop whole.length with
    | [] => some []
    | _ :: digits => ungroup? Char.isDigit digits
  let scale? : Option Int :=
    match body.drop mantissa.length with
    | [] => some 0
    | _ :: power => exponent? power
  match wholeDigits? whole, fraction?, scale? with
  | some whole', some fraction, some scale =>
      whole.length < body.length &&
        (negative ||
          Double.isInRange (ofDigits 10 (whole' ++ fraction)) (scale - fraction.length))
  | _, _, _ => false

def isFloat (text : List Char) : Bool :=
  let word := String.ofList (takeSign text).2
  word = "inf" || word = "nan" || isDecimalFloat text

/-! ## Dates and times -/

/-- A number of two digits within bounds, and what follows it. -/
def twoDigits? (least greatest : Nat) : List Char → Option (Nat × List Char)
  | a :: b :: rest =>
      if a.isDigit && b.isDigit then
        let value := ofDigits 10 [a, b]
        if least ≤ value ∧ value ≤ greatest then some (value, rest) else none
      else none
  | _ => none

/-- What follows a mark. -/
def afterMark? (mark : Char) : List Char → Option (List Char)
  | c :: rest => if c = mark then some rest else none
  | [] => none

def isLeapYear (year : Nat) : Bool := year % 4 = 0 && (year % 100 ≠ 0 || year % 400 = 0)

def daysInMonth (year month : Nat) : Nat :=
  if month = 2 then if isLeapYear year then 29 else 28
  else if month = 4 ∨ month = 6 ∨ month = 9 ∨ month = 11 then 30
  else 31

/-- What follows a date `YYYY-MM-DD`. -/
def afterDate? (text : List Char) : Option (List Char) := do
  let year := text.take 4
  if year.length < 4 || !year.all Char.isDigit then none
  else
    let rest ← afterMark? '-' (text.drop 4)
    let (month, rest) ← twoDigits? 1 12 rest
    let rest ← afterMark? '-' rest
    let (_, rest) ← twoDigits? 1 (daysInMonth (ofDigits 10 year) month) rest
    return rest

/-- What follows a time `HH:MM:SS`, with or without a fraction of the second. -/
def afterTime? (text : List Char) : Option (List Char) := do
  let (_, rest) ← twoDigits? 0 23 text
  let rest ← afterMark? ':' rest
  let (_, rest) ← twoDigits? 0 59 rest
  let rest ← afterMark? ':' rest
  let (_, rest) ← twoDigits? 0 60 rest
  match rest with
  | '.' :: c :: digits => if c.isDigit then some (digits.dropWhile Char.isDigit) else some rest
  | rest => some rest

/-- Nothing, `Z`, or an offset `+HH:MM`. -/
def isOffset (text : List Char) : Bool :=
  match text with
  | [] | ['Z'] | ['z'] => true
  | sign :: rest =>
      (sign = '+' || sign = '-') &&
        (do
          let (_, rest) ← twoDigits? 0 23 rest
          let rest ← afterMark? ':' rest
          let (_, rest) ← twoDigits? 0 59 rest
          return rest.isEmpty : Option Bool).getD false

def isDate (text : List Char) : Bool := afterDate? text = some []

/-- A time with or without an offset. -/
def isZonedTime (text : List Char) : Bool := (afterTime? text).any isOffset

/-- A date, a time, or both with a letter between them. -/
def isDateTime (text : List Char) : Bool :=
  afterTime? text = some [] ||
    match afterDate? text with
    | some [] => true
    | some (letter :: time) => (letter = 'T' || letter = 't') && isZonedTime time
    | none => false

/-! ## Runs -/

/-- The value that a run of characters writes. -/
def scalar? (run : List Char) : Option Toml :=
  match String.ofList run with
  | "true" => some (.boolean true)
  | "false" => some (.boolean false)
  | _ =>
      match integer? run with
      | some value => some value
      | none =>
          if isFloat run then some .float
          else if isDateTime run then some .dateTime
          else none

/-- The value that a text begins with, and what follows it. A date followed by
one blank and a digit goes on with a time. -/
def takeScalar? (text : List Char) : Option (Toml × List Char) := do
  let run := text.takeWhile isScalarChar
  let rest := text.dropWhile isScalarChar
  match rest with
  | ' ' :: c :: more =>
      if c.isDigit && isDate run then
        if isZonedTime ((c :: more).takeWhile isScalarChar) then
          some (.dateTime, (c :: more).dropWhile isScalarChar)
        else none
      else return (← scalar? run, rest)
  | rest => return (← scalar? run, rest)

end InfoFlow.Toml
