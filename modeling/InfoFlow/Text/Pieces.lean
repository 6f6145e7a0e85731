/-!
# Pieces of a text

Cutting a text at a separator, taking off a mark at either end, and reading
plain decimal numbers.
-/

namespace InfoFlow.Text

/-- The pieces of a text between the separators, empty ones included; there is
one piece more than there are separators. -/
def split (separator : Char) : List Char → List (List Char)
  | [] => [[]]
  | c :: rest =>
      if c = separator then [] :: split separator rest
      else match split separator rest with
        | [] => [[c]]
        | piece :: pieces => (c :: piece) :: pieces

/-- What follows `mark`, if the text starts with it. -/
def dropMark? (mark : Char) : List Char → Option (List Char)
  | c :: rest => if c = mark then some rest else none
  | [] => none

/-- What stands before `mark`, if the text ends with it. -/
def dropEndMark? (mark : Char) (text : List Char) : Option (List Char) :=
  (dropMark? mark text.reverse).map List.reverse

/-- The number that a non-empty run of decimal digits denotes. -/
def digits? (text : List Char) : Option Nat :=
  if text.isEmpty || !text.all Char.isDigit then none
  else some (Nat.ofDigitChars 10 text 0)

/-- A number written in decimal digits, with at most one plus sign before them. -/
def natural? : List Char → Option Nat
  | '+' :: rest => digits? rest
  | text => digits? text

end InfoFlow.Text
