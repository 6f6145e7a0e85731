import InfoFlow.Level
import InfoFlow.Text.Blank

/-!
# Chains of levels

The two chains `LOW < HIGH` and `LOW < MEDIUM < HIGH`. A level's name is read
in any mixture of ASCII upper and lower case, with white space around it.
-/

namespace InfoFlow

/-- Public or secret. -/
inductive TwoLevel where
  | low
  | high
deriving DecidableEq, Repr

/-- Public, confidential or secret. -/
inductive ThreeLevel where
  | low
  | medium
  | high
deriving DecidableEq, Repr

/-- The form in which a level's name is compared: no white space around it,
ASCII letters in lower case. -/
def normalName (text : String) : String :=
  String.ofList ((Text.trim text.toList).map Char.toLower)

namespace TwoLevel

/-- The place of a level in the chain. -/
def rank : TwoLevel → Nat
  | low => 0
  | high => 1

theorem eq_of_rank_eq {a b : TwoLevel} (h : a.rank = b.rank) : a = b := by
  cases a <;> cases b <;> simp_all [rank]

/-- The name of a level as it is written. -/
def name : TwoLevel → String
  | low => "LOW"
  | high => "HIGH"

instance : Level TwoLevel where
  le a b := a.rank ≤ b.rank
  bottom := low
  top := high
  join a b := if a.rank ≤ b.rank then b else a
  text := name
  decEq := inferInstance
  decLe a b := inferInstanceAs (Decidable (a.rank ≤ b.rank))

instance : LawfulLevel TwoLevel where
  le_refl a := Nat.le_refl a.rank
  le_trans := Nat.le_trans
  le_antisymm hab hba := eq_of_rank_eq (Nat.le_antisymm hab hba)
  bottom_le a := Nat.zero_le a.rank
  le_top a := by cases a <;> decide
  left_le_join a b := by cases a <;> cases b <;> decide
  right_le_join a b := by cases a <;> cases b <;> decide
  join_le {a b c} hac hbc := by
    show rank (if a.rank ≤ b.rank then b else a) ≤ c.rank
    split
    · exact hbc
    · exact hac

instance : NamedLevel TwoLevel where
  parse text := match normalName text with
    | "low" => .ok low
    | "high" => .ok high
    | _ => .error ⟨text⟩

end TwoLevel

namespace ThreeLevel

/-- The place of a level in the chain. -/
def rank : ThreeLevel → Nat
  | low => 0
  | medium => 1
  | high => 2

theorem eq_of_rank_eq {a b : ThreeLevel} (h : a.rank = b.rank) : a = b := by
  cases a <;> cases b <;> simp_all [rank]

/-- The name of a level as it is written. -/
def name : ThreeLevel → String
  | low => "LOW"
  | medium => "MEDIUM"
  | high => "HIGH"

instance : Level ThreeLevel where
  le a b := a.rank ≤ b.rank
  bottom := low
  top := high
  join a b := if a.rank ≤ b.rank then b else a
  text := name
  decEq := inferInstance
  decLe a b := inferInstanceAs (Decidable (a.rank ≤ b.rank))

instance : LawfulLevel ThreeLevel where
  le_refl a := Nat.le_refl a.rank
  le_trans := Nat.le_trans
  le_antisymm hab hba := eq_of_rank_eq (Nat.le_antisymm hab hba)
  bottom_le a := Nat.zero_le a.rank
  le_top a := by cases a <;> decide
  left_le_join a b := by cases a <;> cases b <;> decide
  right_le_join a b := by cases a <;> cases b <;> decide
  join_le {a b c} hac hbc := by
    show rank (if a.rank ≤ b.rank then b else a) ≤ c.rank
    split
    · exact hbc
    · exact hac

instance : NamedLevel ThreeLevel where
  parse text := match normalName text with
    | "low" => .ok low
    | "medium" => .ok medium
    | "high" => .ok high
    | _ => .error ⟨text⟩

end ThreeLevel

end InfoFlow
