import InfoFlow.Json.Layout
import InfoFlow.Json.Reader
import InfoFlow.Proofs.Json.Lexer

/-!
# Values are read as they are written

The text of a value is read back as that value, with any blanks between its tokens. Two
things are shown, each by recursion over the value as its tokens are: the tokens come back
from the text, since a mark stands after every token that does not end by itself, and the
value comes back from the tokens, whatever arrays and objects are open around it.
-/

namespace InfoFlow

namespace Json

open JsonReader

/-! ## §1  From tokens to values -/

/-- No value begins with the end of an array: the first element is read as any other. -/
theorem foldlM_tokens_atFirstElement (json : Json) (outer : List OpenJson) :
    json.tokens.foldlM next? (atFirstElement outer) =
      json.tokens.foldlM next? (atValue (.array [] :: outer)) := by
  cases json <;> rfl

theorem foldlM_oneMemberTokens_atFirstKey (member : Option String × Json)
    (outer : List OpenJson) :
    (oneMemberTokens member).foldlM next? (atFirstKey outer) =
      (oneMemberTokens member).foldlM next? (atKey [] outer) := by
  obtain ⟨key, value⟩ := member
  rfl

mutual

/-- The tokens of a value are read as the value, wherever a value may stand. -/
theorem foldlM_tokens (json : Json) (outer : List OpenJson) :
    json.tokens.foldlM next? (atValue outer) = some (deliver json outer) := by
  cases json with
  | array elements =>
      have hopen : next? (atValue outer) .openArray = some (atFirstElement outer) := rfl
      rw [tokens, List.cons_append, List.foldlM_cons, hopen, Option.bind_eq_bind,
        Option.bind_some, List.foldlM_append]
      cases elements with
      | nil => rfl
      | cons element elements =>
          have hclose : next? (afterElement (elements.reverse ++ [element]) outer) .closeArray =
              some (deliver (.array (elements.reverse ++ [element]).reverse) outer) := rfl
          rw [elementTokens, List.foldlM_append, foldlM_tokens_atFirstElement,
            foldlM_tokens element, deliver]
          simp [foldlM_moreElementTokens elements, hclose]
  | object members =>
      have hopen : next? (atValue outer) .openObject = some (atFirstKey outer) := rfl
      rw [tokens, List.cons_append, List.foldlM_cons, hopen, Option.bind_eq_bind,
        Option.bind_some, List.foldlM_append]
      cases members with
      | nil => rfl
      | cons member members =>
          have hclose : next? (afterMember (members.reverse ++ [member]) outer) .closeObject =
              some (deliver (.object (members.reverse ++ [member]).reverse) outer) := rfl
          rw [memberTokens, List.foldlM_append, foldlM_oneMemberTokens_atFirstKey,
            foldlM_oneMemberTokens member]
          simp [foldlM_moreMemberTokens members, hclose]
  | null => rfl
  | bool value => rfl
  | number value => rfl
  | string text => rfl

theorem foldlM_moreElementTokens (elements done : List Json) (outer : List OpenJson) :
    (moreElementTokens elements).foldlM next? (afterElement done outer) =
      some (afterElement (elements.reverse ++ done) outer) := by
  cases elements with
  | nil => rfl
  | cons element elements =>
      have hcomma : next? (afterElement done outer) .comma =
          some (atValue (.array done :: outer)) := rfl
      rw [moreElementTokens, List.cons_append, List.foldlM_cons, hcomma, Option.bind_eq_bind,
        Option.bind_some, List.foldlM_append, foldlM_tokens element, deliver]
      simp [foldlM_moreElementTokens elements]

theorem foldlM_moreMemberTokens (members done : List (Option String × Json))
    (outer : List OpenJson) :
    (moreMemberTokens members).foldlM next? (afterMember done outer) =
      some (afterMember (members.reverse ++ done) outer) := by
  cases members with
  | nil => rfl
  | cons member members =>
      have hcomma : next? (afterMember done outer) .comma = some (atKey done outer) := rfl
      rw [moreMemberTokens, List.cons_append, List.foldlM_cons, hcomma, Option.bind_eq_bind,
        Option.bind_some, List.foldlM_append, foldlM_oneMemberTokens member]
      simp [foldlM_moreMemberTokens members]

theorem foldlM_oneMemberTokens (member : Option String × Json)
    (done : List (Option String × Json)) (outer : List OpenJson) :
    (oneMemberTokens member).foldlM next? (atKey done outer) =
      some (afterMember (member :: done) outer) := by
  obtain ⟨key, value⟩ := member
  exact foldlM_tokens value (.object done key :: outer)

end

theorem ofTokens?_tokens (json : Json) : ofTokens? json.tokens = some json := by
  unfold ofTokens?
  rw [foldlM_tokens]
  rfl

/-! ## §2  From characters to tokens -/

open Lexer (Apart Spaced apart_nil apart_token IsMark)

theorem isMark_of_mem_head?_moreElementTokens (elements : List Json) :
    ∀ token ∈ (moreElementTokens elements).head?, IsMark token := by
  cases elements with
  | nil => simp [moreElementTokens]
  | cons element elements => simp [moreElementTokens, IsMark, Lexer.EndsItself]

theorem isMark_of_mem_head?_moreMemberTokens (members : List (Option String × Json)) :
    ∀ token ∈ (moreMemberTokens members).head?, IsMark token := by
  cases members with
  | nil => simp [moreMemberTokens]
  | cons member members => simp [moreMemberTokens, IsMark, Lexer.EndsItself]

mutual

/-- In a value a mark stands after every token that does not end by itself. -/
theorem apart_tokens (json : Json) : Apart json.tokens := by
  cases json with
  | array elements =>
      rw [tokens, List.cons_append]
      have hclose : Apart [.closeArray] := apart_token _
      exact ((apart_elementTokens elements).append hclose (by simp [IsMark, Lexer.EndsItself])).cons
        trivial
  | object members =>
      rw [tokens, List.cons_append]
      have hclose : Apart [.closeObject] := apart_token _
      exact ((apart_memberTokens members).append hclose (by simp [IsMark, Lexer.EndsItself])).cons
        trivial
  | null => exact apart_token _
  | bool value => exact apart_token _
  | number value => exact apart_token _
  | string text => exact apart_token _

theorem apart_elementTokens (elements : List Json) : Apart (elementTokens elements) := by
  cases elements with
  | nil => exact apart_nil
  | cons element elements =>
      exact (apart_tokens element).append (apart_moreElementTokens elements)
        (isMark_of_mem_head?_moreElementTokens elements)

theorem apart_moreElementTokens (elements : List Json) : Apart (moreElementTokens elements) := by
  cases elements with
  | nil => exact apart_nil
  | cons element elements =>
      exact ((apart_tokens element).append (apart_moreElementTokens elements)
        (isMark_of_mem_head?_moreElementTokens elements)).cons trivial

theorem apart_memberTokens (members : List (Option String × Json)) :
    Apart (memberTokens members) := by
  cases members with
  | nil => exact apart_nil
  | cons member members =>
      exact (apart_oneMemberTokens member).append (apart_moreMemberTokens members)
        (isMark_of_mem_head?_moreMemberTokens members)

theorem apart_moreMemberTokens (members : List (Option String × Json)) :
    Apart (moreMemberTokens members) := by
  cases members with
  | nil => exact apart_nil
  | cons member members =>
      exact ((apart_oneMemberTokens member).append (apart_moreMemberTokens members)
        (isMark_of_mem_head?_moreMemberTokens members)).cons trivial

theorem apart_oneMemberTokens (member : Option String × Json) :
    Apart (oneMemberTokens member) := by
  obtain ⟨key, value⟩ := member
  have hvalue : Apart (.colon :: value.tokens) := (apart_tokens value).cons trivial
  exact hvalue.cons trivial

end

/-! ## §3  From texts to values -/

/-- **Every value is read back from its tokens**, with blanks between them or without. -/
theorem read?_of_spaced {json : Json} {text : List Char} (h : Spaced json.tokens text) :
    read? (String.ofList text) = some json := by
  unfold read?
  rw [String.toList_ofList, h.read? (apart_tokens json)]
  exact ofTokens?_tokens json

/-- **Every value is read back from its text in one line.** -/
theorem read?_compact (json : Json) : read? json.compact = some json :=
  read?_of_spaced (Lexer.spaced_flatMap json.tokens)

end Json

end InfoFlow
