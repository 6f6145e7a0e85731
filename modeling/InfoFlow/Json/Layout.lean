import InfoFlow.Json.Token

/-!
# Laying out JSON

A value is written in one of two layouts: compact, with no blank anywhere, or
indented, with one element or member per line and two spaces for each level of
nesting. An array or object with nothing in it is written without a line break.
-/

namespace InfoFlow

/-- A line break and the indentation of `depth` levels. -/
def newLine (depth : Nat) : List Char := '\n' :: List.replicate (2 * depth) ' '

namespace Token

/-- Tokens with line breaks and indentation. `depth` is the nesting of the first
of them, and `afterOpen` says whether a bracket was opened just before it. -/
def indented (depth : Nat) (afterOpen : Bool) : List Token → List Char
  | [] => []
  | token :: rest =>
      let before := if afterOpen then newLine depth else []
      match token with
      | openObject | openArray => before ++ token.text ++ indented (depth + 1) true rest
      | closeObject | closeArray =>
          (if afterOpen then [] else newLine (depth - 1)) ++ token.text ++
            indented (depth - 1) false rest
      | comma => token.text ++ newLine depth ++ indented depth false rest
      | colon => token.text ++ [' '] ++ indented depth false rest
      | _ => before ++ token.text ++ indented depth false rest

end Token

namespace Json

/-- A value in one line, without blanks. -/
def compact (json : Json) : String := String.ofList (json.tokens.flatMap Token.text)

/-- A value over several lines. -/
def indented (json : Json) : String := String.ofList (Token.indented 0 false json.tokens)

end Json

end InfoFlow
