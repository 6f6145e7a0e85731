import InfoFlow.Proofs.Json.Reader

/-!
# The layout of a value over several lines

Where the line breaks go is decided token by token, from the brackets and commas alone. The
same text can be told from the value (`laidOut`): every element and member stands on a line of
its own, one level deeper than the array or object around it, whose closing bracket is on a line
at its own depth again; an array or object with nothing in it is just its two brackets. The two
accounts agree (`indented_tokens`). A layout puts nothing but blanks between the tokens, so that
the value is read back from it (`read?_indented_append`).
-/

namespace InfoFlow

/-! ## §1  The layout, told from the value -/

namespace Json

mutual

/-- A value that stands at nesting `depth`, from its first character to its last. -/
def laidOut (depth : Nat) : Json → List Char
  | null => Token.null.text
  | bool value => (Token.bool value).text
  | number value => (Token.number value).text
  | string text => (Token.string text).text
  | array elements => '[' :: elementLines depth elements ++ [']']
  | object members => '\x7b' :: memberLines depth members ++ ['\x7d']

/-- The lines between the brackets of an array. -/
def elementLines (depth : Nat) : List Json → List Char
  | [] => []
  | element :: elements =>
      newLine (depth + 1) ++ laidOut (depth + 1) element ++ moreElementLines depth elements ++
        newLine depth

/-- The lines of elements that come after another one. -/
def moreElementLines (depth : Nat) : List Json → List Char
  | [] => []
  | element :: elements =>
      ',' :: newLine (depth + 1) ++ laidOut (depth + 1) element ++ moreElementLines depth elements

/-- The lines between the brackets of an object. -/
def memberLines (depth : Nat) : List (Option String × Json) → List Char
  | [] => []
  | member :: members =>
      newLine (depth + 1) ++ memberLine depth member ++ moreMemberLines depth members ++
        newLine depth

/-- The lines of members that come after another one. -/
def moreMemberLines (depth : Nat) : List (Option String × Json) → List Char
  | [] => []
  | member :: members =>
      ',' :: newLine (depth + 1) ++ memberLine depth member ++ moreMemberLines depth members

/-- A key and its value, with a colon and a space between them. -/
def memberLine (depth : Nat) : Option String × Json → List Char
  | (key, value) => (Token.string key).text ++ [':', ' '] ++ laidOut (depth + 1) value

end

end Json

/-! ## §2  Token by token -/

namespace Token

open Json

mutual

/-- **A value is laid out by its tokens**, whatever comes after it. -/
theorem indented_tokens (json : Json) (depth : Nat) (afterOpen : Bool) (rest : List Token) :
    indented depth afterOpen (json.tokens ++ rest) =
      (if afterOpen then newLine depth else []) ++ json.laidOut depth ++
        indented depth false rest := by
  cases json with
  | array elements =>
      have hopen : ∀ tokens, indented depth afterOpen (openArray :: tokens) =
          (if afterOpen then newLine depth else []) ++ ['['] ++
            indented (depth + 1) true tokens := fun _ => rfl
      rw [tokens, List.append_assoc, List.cons_append, List.singleton_append, hopen,
        indented_elementTokens elements]
      simp [laidOut]
  | object members =>
      have hopen : ∀ tokens, indented depth afterOpen (openObject :: tokens) =
          (if afterOpen then newLine depth else []) ++ ['\x7b'] ++
            indented (depth + 1) true tokens := fun _ => rfl
      rw [tokens, List.append_assoc, List.cons_append, List.singleton_append, hopen,
        indented_memberTokens members]
      simp [laidOut]
  | null => rfl
  | bool value => rfl
  | number value => rfl
  | string text => rfl

theorem indented_elementTokens (elements : List Json) (depth : Nat) (rest : List Token) :
    indented (depth + 1) true (elementTokens elements ++ closeArray :: rest) =
      elementLines depth elements ++ ']' :: indented depth false rest := by
  cases elements with
  | nil => rfl
  | cons element elements =>
      have hclose : indented (depth + 1) false (closeArray :: rest) =
          newLine depth ++ [']'] ++ indented depth false rest := rfl
      rw [elementTokens, List.append_assoc, indented_tokens element,
        indented_moreElementTokens elements, hclose]
      simp [elementLines]

theorem indented_moreElementTokens (elements : List Json) (depth : Nat) (rest : List Token) :
    indented (depth + 1) false (moreElementTokens elements ++ rest) =
      moreElementLines depth elements ++ indented (depth + 1) false rest := by
  cases elements with
  | nil => rfl
  | cons element elements =>
      have hcomma : ∀ tokens, indented (depth + 1) false (comma :: tokens) =
          ',' :: newLine (depth + 1) ++ indented (depth + 1) false tokens := fun _ => rfl
      rw [moreElementTokens, List.append_assoc, List.cons_append, hcomma,
        indented_tokens element, indented_moreElementTokens elements]
      simp [moreElementLines]

theorem indented_memberTokens (members : List (Option String × Json)) (depth : Nat)
    (rest : List Token) :
    indented (depth + 1) true (memberTokens members ++ closeObject :: rest) =
      memberLines depth members ++ '\x7d' :: indented depth false rest := by
  cases members with
  | nil => rfl
  | cons member members =>
      have hclose : indented (depth + 1) false (closeObject :: rest) =
          newLine depth ++ ['\x7d'] ++ indented depth false rest := rfl
      rw [memberTokens, List.append_assoc, indented_oneMemberTokens member,
        indented_moreMemberTokens members, hclose]
      simp [memberLines]

theorem indented_moreMemberTokens (members : List (Option String × Json)) (depth : Nat)
    (rest : List Token) :
    indented (depth + 1) false (moreMemberTokens members ++ rest) =
      moreMemberLines depth members ++ indented (depth + 1) false rest := by
  cases members with
  | nil => rfl
  | cons member members =>
      have hcomma : ∀ tokens, indented (depth + 1) false (comma :: tokens) =
          ',' :: newLine (depth + 1) ++ indented (depth + 1) false tokens := fun _ => rfl
      rw [moreMemberTokens, List.append_assoc, List.cons_append, hcomma,
        indented_oneMemberTokens member, indented_moreMemberTokens members]
      simp [moreMemberLines]

theorem indented_oneMemberTokens (member : Option String × Json) (depth : Nat)
    (afterOpen : Bool) (rest : List Token) :
    indented (depth + 1) afterOpen (oneMemberTokens member ++ rest) =
      (if afterOpen then newLine (depth + 1) else []) ++ memberLine depth member ++
        indented (depth + 1) false rest := by
  obtain ⟨key, value⟩ := member
  have hkey : ∀ tokens, indented (depth + 1) afterOpen (string key :: colon :: tokens) =
      (if afterOpen then newLine (depth + 1) else []) ++ (string key).text ++
        ([':', ' '] ++ indented (depth + 1) false tokens) := fun _ => rfl
  rw [oneMemberTokens, List.cons_append, List.cons_append, hkey, indented_tokens value]
  simp [memberLine]

end

end Token

/-! ## §3  Nothing but blanks -/

namespace Lexer

variable {tokens : List Token} {text blanks : List Char}

theorem Spaced.blanks_append (h : Spaced tokens text)
    (hblanks : ∀ c ∈ blanks, isBlank c = true) : Spaced tokens (blanks ++ text) := by
  induction blanks with
  | nil => exact h
  | cons c blanks ih =>
      exact .blank (hblanks c List.mem_cons_self)
        (ih fun c hc => hblanks c (List.mem_cons_of_mem _ hc))

theorem Spaced.append_blanks (h : Spaced tokens text)
    (hblanks : ∀ c ∈ blanks, isBlank c = true) : Spaced tokens (text ++ blanks) := by
  induction h with
  | nil =>
      rw [List.nil_append, ← List.append_nil blanks]
      exact Spaced.nil.blanks_append hblanks
  | blank blank rest ih => exact .blank blank ih
  | token token rest ih =>
      rw [List.append_assoc]
      exact .token token ih

theorem Spaced.token_after (h : Spaced tokens text) (hblanks : ∀ c ∈ blanks, isBlank c = true)
    (token : Token) : Spaced (token :: tokens) (blanks ++ token.text ++ text) := by
  rw [List.append_assoc]
  exact (Spaced.token token h).blanks_append hblanks

theorem Spaced.token_before (h : Spaced tokens text) (hblanks : ∀ c ∈ blanks, isBlank c = true)
    (token : Token) : Spaced (token :: tokens) (token.text ++ blanks ++ text) := by
  rw [List.append_assoc]
  exact .token token (h.blanks_append hblanks)

theorem isBlank_of_mem_newLine {depth : Nat} : ∀ c ∈ newLine depth, isBlank c = true := by
  intro c hc
  rcases List.mem_cons.1 hc with rfl | hc
  · rfl
  · rw [List.eq_of_mem_replicate hc]
    rfl

/-- **Line breaks and indentation are blanks**, wherever they go. -/
theorem spaced_indented (depth : Nat) (afterOpen : Bool) (tokens : List Token) :
    Spaced tokens (Token.indented depth afterOpen tokens) := by
  induction tokens generalizing depth afterOpen with
  | nil => exact .nil
  | cons token tokens ih =>
      have hopened : ∀ c ∈ (if afterOpen then newLine depth else []), isBlank c = true := by
        split
        · exact isBlank_of_mem_newLine
        · simp
      have hclosing : ∀ c ∈ (if afterOpen then [] else newLine (depth - 1)), isBlank c = true := by
        split
        · simp
        · exact isBlank_of_mem_newLine
      cases token with
      | openObject | openArray => exact (ih (depth + 1) true).token_after hopened _
      | closeObject | closeArray => exact (ih (depth - 1) false).token_after hclosing _
      | comma => exact (ih depth false).token_before isBlank_of_mem_newLine _
      | colon => exact (ih depth false).token_before (by simp [isBlank]) _
      | _ => exact (ih depth false).token_after hopened _

end Lexer

/-! ## §4  Values -/

namespace Json

theorem indented_eq (json : Json) : json.indented = String.ofList (json.laidOut 0) := by
  have hlayout := Token.indented_tokens json 0 false []
  rw [List.append_nil] at hlayout
  rw [indented, hlayout]
  simp [Token.indented]

/-- **Every value is read back from its text over several lines**, with blanks after it or
without. -/
theorem read?_indented_append (json : Json) {blanks : List Char}
    (hblanks : ∀ c ∈ blanks, Lexer.isBlank c = true) :
    read? (json.indented ++ String.ofList blanks) = some json := by
  rw [indented, ← String.ofList_append]
  exact read?_of_spaced ((Lexer.spaced_indented 0 false json.tokens).append_blanks hblanks)

end Json

end InfoFlow
