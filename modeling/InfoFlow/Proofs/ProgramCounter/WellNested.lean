import Mathlib.Data.List.Induction
import InfoFlow.Name

/-!
# Well-nested words

A word lists the scopes that are opened and closed, by their tags, one after the other. It
is well-nested if every scope is closed again by its own tag, inside the scopes around it.
A word is legal below a limit if it can be continued to a well-nested one in which no more
scopes are ever open (`Legal`).

The scopes that a word leaves open are those of its brackets that match no other
(`Unmatched`). A legal word is one that has such brackets and keeps the limit
(`legal_iff`), so that what may come next can be read off the open scopes: a closing
bracket has to match the innermost (`Unmatched.legal_closes`), an opening one has to find
room (`Unmatched.within_opens`).
-/

namespace InfoFlow

/-- A scope is opened, or closed. -/
inductive Bracket where
  | opens (tag : Tag)
  | closes (tag : Tag)
deriving DecidableEq, Repr

/-- Every scope is closed by its own tag, inside the scopes around it. -/
inductive WellNested : List Bracket → Prop
  | nil : WellNested []
  | scope (tag : Tag) {inside rest : List Bracket} (hinside : WellNested inside)
      (hrest : WellNested rest) : WellNested (.opens tag :: inside ++ .closes tag :: rest)

/-- `Unmatched word tags`: the brackets of the word that match no other open scopes with
these tags, outermost first. -/
inductive Unmatched : List Bracket → List Tag → Prop
  | none {word : List Bracket} (h : WellNested word) : Unmatched word []
  | opens {word rest : List Bracket} {tags : List Tag} (h : WellNested word) (tag : Tag)
      (hrest : Unmatched rest tags) : Unmatched (word ++ .opens tag :: rest) (tag :: tags)

/-! ## §1  Limits -/

namespace Bracket

def isOpening : Bracket → Bool
  | opens _ => true
  | closes _ => false

end Bracket

def openings (word : List Bracket) : Nat := word.countP (·.isOpening)

def closings (word : List Bracket) : Nat := word.countP (!·.isOpening)

/-- Never are more scopes open than the limit says, if there is one. -/
def Within (limit : Option UInt64) (word : List Bracket) : Prop :=
  ∀ most, limit = some most → ∀ done, done <+: word → openings done ≤ closings done + most.toNat

/-- The word can be continued to a well-nested one within the limit. -/
def Legal (limit : Option UInt64) (word : List Bracket) : Prop :=
  ∃ rest, WellNested (word ++ rest) ∧ Within limit (word ++ rest)

variable {limit : Option UInt64} {word rest : List Bracket} {tags : List Tag} {tag : Tag}

theorem openings_append (word rest : List Bracket) :
    openings (word ++ rest) = openings word + openings rest :=
  List.countP_append

theorem closings_append (word rest : List Bracket) :
    closings (word ++ rest) = closings word + closings rest :=
  List.countP_append

theorem within_nil : Within limit [] := by
  intro most _ done hdone
  rw [List.prefix_nil.1 hdone]
  exact Nat.zero_le _

theorem Within.of_append (h : Within limit (word ++ rest)) : Within limit word :=
  fun most hlimit done hdone => h most hlimit done (hdone.trans (List.prefix_append word rest))

/-- One bracket more keeps the limit if it does so at the end. -/
theorem Within.concat (h : Within limit word) {bracket : Bracket}
    (hroom : ∀ most, limit = some most →
      openings (word ++ [bracket]) ≤ closings (word ++ [bracket]) + most.toNat) :
    Within limit (word ++ [bracket]) := by
  intro most hlimit done hdone
  rcases List.prefix_concat_iff.1 hdone with rfl | hdone
  · exact hroom most hlimit
  · exact h most hlimit done hdone

theorem Within.closes (h : Within limit word) (tag : Tag) :
    Within limit (word ++ [.closes tag]) := by
  refine h.concat fun most hlimit => ?_
  have hword := h most hlimit word (List.prefix_refl word)
  have hopenings : openings [.closes tag] = 0 := rfl
  rw [openings_append, closings_append, hopenings]
  omega

/-! ## §2  Well-nested words -/

theorem WellNested.append (h : WellNested word) (hrest : WellNested rest) :
    WellNested (word ++ rest) := by
  induction h with
  | nil => exact hrest
  | scope tag hinside _ _ ih =>
      have hscope := WellNested.scope tag hinside ih
      rwa [← List.cons_append, ← List.append_assoc] at hscope

theorem WellNested.openings_eq (h : WellNested word) : openings word = closings word := by
  induction h with
  | nil => rfl
  | @scope tag inside rest _ _ ihinside ihrest =>
      have hopens : openings [.opens tag] = 1 ∧ closings [.opens tag] = 0 := ⟨rfl, rfl⟩
      have hcloses : openings [.closes tag] = 0 ∧ closings [.closes tag] = 1 := ⟨rfl, rfl⟩
      rw [List.cons_append, List.append_cons, ← List.singleton_append]
      simp only [openings_append, closings_append]
      omega

/-! ## §3  Open scopes -/

/-- The tags of the open scopes, innermost first, after this bracket. A closing bracket has
to carry the tag of the innermost. -/
def Bracket.next? (stack : List Tag) : Bracket → Option (List Tag)
  | opens tag => some (tag :: stack)
  | closes tag =>
      match stack with
      | [] => none
      | top :: stack => if top = tag then some stack else none

theorem Bracket.next?_closes {stack stack' : List Tag} :
    Bracket.next? stack (.closes tag) = some stack' ↔ stack = tag :: stack' := by
  cases stack with
  | nil => simp [Bracket.next?]
  | cons top stack =>
      by_cases htop : top = tag <;> simp [Bracket.next?, htop]

theorem WellNested.foldlM_next? (h : WellNested word) (stack : List Tag) :
    word.foldlM Bracket.next? stack = some stack := by
  induction h generalizing stack with
  | nil => rfl
  | @scope tag inside rest _ _ ihinside ihrest =>
      have hopens : Bracket.next? stack (.opens tag) = some (tag :: stack) := rfl
      have hcloses : Bracket.next? (tag :: stack) (.closes tag) = some stack :=
        Bracket.next?_closes.2 rfl
      rw [List.cons_append, List.foldlM_cons, hopens, Option.bind_eq_bind, Option.bind_some,
        List.foldlM_append, ihinside, Option.bind_eq_bind, Option.bind_some, List.foldlM_cons,
        hcloses, Option.bind_eq_bind, Option.bind_some, ihrest]

theorem Unmatched.foldlM_next? (h : Unmatched word tags) (stack : List Tag) :
    word.foldlM Bracket.next? stack = some (tags.reverse ++ stack) := by
  induction h generalizing stack with
  | none h => exact h.foldlM_next? stack
  | @opens word rest tags h tag _ ih =>
      have hopens : Bracket.next? stack (.opens tag) = some (tag :: stack) := rfl
      rw [List.foldlM_append, h.foldlM_next?, Option.bind_eq_bind, Option.bind_some,
        List.foldlM_cons, hopens, Option.bind_eq_bind, Option.bind_some, ih, List.reverse_cons,
        List.append_assoc, List.singleton_append]

/-- **A word leaves one list of scopes open**, if any. -/
theorem Unmatched.eq {others : List Tag} (h : Unmatched word tags)
    (hother : Unmatched word others) : others = tags := by
  have hsame := (hother.foldlM_next? []).symm.trans (h.foldlM_next? [])
  simpa using hsame

theorem unmatched_nil_iff : Unmatched word [] ↔ WellNested word := by
  refine ⟨fun h => ?_, .none⟩
  cases h with
  | none h => exact h

/-- An opening bracket at the end is not matched. -/
theorem Unmatched.concat_opens (h : Unmatched word tags) (tag : Tag) :
    Unmatched (word ++ [.opens tag]) (tags ++ [tag]) := by
  induction h with
  | none h => exact .opens h tag (.none .nil)
  | @opens word rest tags h outer _ ih =>
      rw [List.append_assoc, List.cons_append]
      exact .opens h outer ih

/-- A closing bracket at the end matches the innermost that is open. -/
theorem Unmatched.concat_closes (h : Unmatched word (tags ++ [tag])) :
    Unmatched (word ++ [.closes tag]) tags := by
  generalize hall : tags ++ [tag] = all at h
  induction h generalizing tags with
  | none h => simp at hall
  | @opens word rest inner h outer hrest ih =>
      cases tags with
      | nil =>
          obtain ⟨rfl, rfl⟩ := List.cons.inj hall
          have hinside := unmatched_nil_iff.1 hrest
          rw [List.append_assoc, List.cons_append]
          exact .none (h.append (.scope tag hinside .nil))
      | cons first tags =>
          obtain ⟨rfl, rfl⟩ := List.cons.inj hall
          rw [List.append_assoc, List.cons_append]
          exact .opens h first (ih rfl)

theorem unmatched_of_foldlM_next? {stack : List Tag}
    (h : word.foldlM Bracket.next? [] = some stack) : Unmatched word stack.reverse := by
  induction word using List.reverseRecOn generalizing stack with
  | nil =>
      cases h
      exact .none .nil
  | append_singleton word bracket ih =>
      rw [List.foldlM_append] at h
      obtain ⟨before, hbefore, hlast⟩ := Option.bind_eq_some_iff.1 h
      have hlast : Bracket.next? before bracket = some stack := by simpa using hlast
      cases bracket with
      | opens tag =>
          cases hlast
          rw [List.reverse_cons]
          exact (ih hbefore).concat_opens tag
      | closes tag =>
          obtain rfl := Bracket.next?_closes.1 hlast
          have hword := ih hbefore
          rw [List.reverse_cons] at hword
          exact hword.concat_closes

/-- What can be continued to a well-nested word leaves scopes open. -/
theorem WellNested.exists_unmatched (h : WellNested (word ++ rest)) :
    ∃ tags, Unmatched word tags := by
  have hall := h.foldlM_next? []
  rw [List.foldlM_append] at hall
  obtain ⟨stack, hstack, -⟩ := Option.bind_eq_some_iff.1 hall
  exact ⟨stack.reverse, unmatched_of_foldlM_next? hstack⟩

theorem Unmatched.openings_eq (h : Unmatched word tags) :
    openings word = closings word + tags.length := by
  induction h with
  | none h => exact h.openings_eq
  | @opens word rest tags h tag _ ih =>
      have hopens : openings [.opens tag] = 1 ∧ closings [.opens tag] = 0 := ⟨rfl, rfl⟩
      have hword := h.openings_eq
      rw [List.append_cons]
      simp only [openings_append, closings_append, List.length_cons]
      omega

/-! ## §4  Legal words -/

/-- **Legal are the words that leave scopes open and keep the limit.** -/
theorem legal_iff : Legal limit word ↔ (∃ tags, Unmatched word tags) ∧ Within limit word := by
  constructor
  · rintro ⟨rest, hnested, hwithin⟩
    exact ⟨hnested.exists_unmatched, hwithin.of_append⟩
  · rintro ⟨⟨tags, htags⟩, hwithin⟩
    -- the open scopes are closed one after the other
    induction tags using List.reverseRecOn generalizing word with
    | nil => exact ⟨[], by simpa using unmatched_nil_iff.1 htags, by simpa using hwithin⟩
    | append_singleton tags tag ih =>
        obtain ⟨rest, hnested, hrest⟩ := ih (hwithin.closes tag) htags.concat_closes
        rw [List.append_assoc] at hnested hrest
        exact ⟨_, hnested, hrest⟩

theorem Unmatched.legal (h : Unmatched word tags) (hwithin : Within limit word) :
    Legal limit word :=
  legal_iff.2 ⟨⟨tags, h⟩, hwithin⟩

/-- A closing bracket may come next if it matches the innermost that is open. -/
theorem Unmatched.legal_closes (h : Unmatched word tags) (hwithin : Within limit word) :
    Legal limit (word ++ [.closes tag]) ↔ tags.getLast? = some tag := by
  rw [List.getLast?_eq_some_iff]
  constructor
  · intro hlegal
    obtain ⟨⟨outer, houter⟩, -⟩ := legal_iff.1 hlegal
    have hread := houter.foldlM_next? []
    rw [List.foldlM_append, h.foldlM_next?, Option.bind_eq_bind, Option.bind_some] at hread
    have hlast : Bracket.next? tags.reverse (.closes tag) = some outer.reverse := by
      simpa using hread
    have hreverse := congrArg List.reverse (Bracket.next?_closes.1 hlast)
    exact ⟨outer, by simpa using hreverse⟩
  · rintro ⟨outer, rfl⟩
    exact h.concat_closes.legal (hwithin.closes tag)

/-- An opening bracket may come next if fewer scopes are open than the limit says. -/
theorem Unmatched.within_opens (h : Unmatched word tags) (hwithin : Within limit word) :
    Within limit (word ++ [.opens tag]) ↔
      ∀ most, limit = some most → tags.length < most.toNat := by
  have hopenings : openings (word ++ [.opens tag]) = closings word + tags.length + 1 := by
    rw [openings_append, h.openings_eq]
    rfl
  have hclosings : closings (word ++ [.opens tag]) = closings word := by
    rw [closings_append]
    rfl
  constructor
  · intro hopens most hlimit
    have hall := hopens most hlimit _ (List.prefix_refl _)
    omega
  · intro hroom
    refine hwithin.concat fun most hlimit => ?_
    have hmost := hroom most hlimit
    omega

/-- Within a limit of nothing there is no scope. -/
theorem Legal.eq_nil (h : Legal (some 0) word) : word = [] := by
  obtain ⟨⟨tags, htags⟩, hwithin⟩ := legal_iff.1 h
  cases word with
  | nil => rfl
  | cons bracket word =>
      have hfirst := hwithin 0 rfl [bracket] ⟨word, rfl⟩
      have hread := htags.foldlM_next? []
      cases bracket with
      | opens tag => exact absurd hfirst (Nat.not_succ_le_zero 0)
      | closes tag => cases hread

end InfoFlow
