import InfoFlow.Level
import InfoFlow.Text.Blank
import InfoFlow.Text.Pieces

/-!
# Sets of categories

A level may be a set of need-to-know categories, numbered from 0 and below
`n`: a value may flow wherever all its categories are cleared. The order is
inclusion and the join is union. A set is kept as one bit per category.

A set is written `{0,2}`: the categories in increasing order between braces.
Reading is more lenient: white space may stand around the braces and around
every part, parts may be empty, and they may come in any order and repeat.
-/

namespace InfoFlow

/-- A set of categories below `n`; bit `i` says whether category `i` is in it. -/
structure CategorySet (n : Nat) where
  mask : BitVec n
deriving DecidableEq, Repr

namespace CategorySet

variable {n : Nat}

def empty : CategorySet n := ⟨0#n⟩

instance : Inhabited (CategorySet n) := ⟨empty⟩

def full : CategorySet n := ⟨BitVec.allOnes n⟩

def union (a b : CategorySet n) : CategorySet n := ⟨a.mask ||| b.mask⟩

/-- The set with the single category `index`, if there is such a category. -/
def category? (index : Nat) : Option (CategorySet n) :=
  if index < n then some ⟨BitVec.twoPow n index⟩ else none

/-- The set with `index` added, if there is such a category. -/
def with? (a : CategorySet n) (index : Nat) : Option (CategorySet n) :=
  (category? index).map a.union

def contains (a : CategorySet n) (index : Nat) : Bool :=
  a.mask.getLsbD index

/-- The categories of a set, in increasing order. -/
def members (a : CategorySet n) : List Nat :=
  (List.range n).filter a.contains

/-- The bits of a set as a number. -/
def bits (a : CategorySet n) : Nat := a.mask.toNat

/-- The set of the categories whose bit is set; bits outside the `n` categories
are dropped. -/
def ofBits (bits : Nat) : CategorySet n := ⟨BitVec.ofNat n bits⟩

/-- The set of the categories whose bit is set; fails when there are bits
outside the `n` categories. -/
def ofBits? (bits : Nat) : Except UnknownLevel (CategorySet n) :=
  if bits < Nat.pow 2 n then .ok (ofBits bits)
  else
    let hexadecimal := String.ofList (Nat.toDigits 16 bits)
    .error ⟨s!"0x{hexadecimal} has categories outside 0..{n}"⟩

def text (a : CategorySet n) : String :=
  "\x7b" ++ ",".intercalate (a.members.map toString) ++ "\x7d"

instance : Level (CategorySet n) where
  le a b := a.mask &&& ~~~b.mask = 0#n
  bottom := empty
  top := full
  join := union
  text := text
  decEq := inferInstance
  decLe a b := inferInstanceAs (Decidable (a.mask &&& ~~~b.mask = 0#n))

/-- The text between the braces, if the text without white space around it has
them. -/
def inner? (text : String) : Option (List Char) := do
  Text.dropEndMark? '\x7d' (← Text.dropMark? '\x7b' (Text.trim text.toList))

/-- The parts between the commas, without white space around them and without
those that are then empty. -/
def parts (inner : List Char) : List (List Char) :=
  ((Text.split ',' inner).map Text.trim).filter (!·.isEmpty)

/-- The set of the categories that the parts name. -/
def ofParts? (parts : List (List Char)) : Option (CategorySet n) :=
  parts.foldlM (fun set part => do set.with? (← Text.natural? part)) empty

instance : NamedLevel (CategorySet n) where
  parse text :=
    match (do ofParts? (parts (← inner? text)) : Option (CategorySet n)) with
    | some set => .ok set
    | none => .error ⟨text⟩

/-- What is read is the set that the parts between the braces name. -/
theorem toOption_parse (text : String) :
    (NamedLevel.parse text : Except UnknownLevel (CategorySet n)).toOption =
      (inner? text).bind fun inner => ofParts? (parts inner) := by
  simp only [NamedLevel.parse, Option.bind_eq_bind]
  split
  · rename_i set hset
    rw [hset]
    rfl
  · rename_i hnone
    rw [hnone]
    rfl

/-- A failure carries the whole text. -/
theorem eq_of_parse_eq_error {text : String} {e : UnknownLevel}
    (h : (NamedLevel.parse text : Except UnknownLevel (CategorySet n)) = .error e) :
    e = ⟨text⟩ := by
  simp only [NamedLevel.parse] at h
  split at h
  · cases h
  · exact (Except.error.inj h).symm

/-- One set flows to another when every category of it is in the other. -/
theorem le_iff {a b : CategorySet n} : a ≤ b ↔ ∀ i, a.contains i → b.contains i := by
  show a.mask &&& ~~~b.mask = 0#n ↔ _
  constructor
  · intro h i hi
    have := congrArg (BitVec.getLsbD · i) h
    have hlt : i < n := BitVec.lt_of_getLsbD hi
    simp only [contains] at hi
    simpa [hi, hlt, contains] using this
  · intro h
    apply BitVec.eq_of_getLsbD_eq
    intro i hi
    have := h i
    simp only [contains] at this
    cases ha : a.mask.getLsbD i <;> simp_all

/-- Two sets are equal when they hold the same categories. -/
theorem eq_of_contains {a b : CategorySet n} (h : ∀ i, a.contains i = b.contains i) : a = b := by
  have : a.mask = b.mask := BitVec.eq_of_getLsbD_eq fun i _ => h i
  cases a; cases b; simp_all

@[simp] theorem contains_union (a b : CategorySet n) (i : Nat) :
    (a.union b).contains i = (a.contains i || b.contains i) := by
  simp [contains, union]

@[simp] theorem contains_empty (i : Nat) : (empty : CategorySet n).contains i = false := by
  simp [contains, empty]

@[simp] theorem contains_full (i : Nat) : (full : CategorySet n).contains i = decide (i < n) := by
  simp [contains, full]

instance : LawfulLevel (CategorySet n) where
  le_refl a := le_iff.2 fun _ h => h
  le_trans hab hbc := le_iff.2 fun i h => le_iff.1 hbc i (le_iff.1 hab i h)
  le_antisymm hab hba := eq_of_contains fun i =>
    Bool.eq_iff_iff.2 ⟨le_iff.1 hab i, le_iff.1 hba i⟩
  bottom_le _ := le_iff.2 fun i h => absurd h (by simp [Level.bottom])
  le_top a := le_iff.2 fun i h => by
    have : i < n := BitVec.lt_of_getLsbD h
    simp [Level.top, this]
  left_le_join a b := le_iff.2 fun i h => by simp [Level.join, h]
  right_le_join a b := le_iff.2 fun i h => by simp [Level.join, h]
  join_le hac hbc := le_iff.2 fun i h => by
    simp only [Level.join, contains_union, Bool.or_eq_true] at h
    exact h.elim (le_iff.1 hac i) (le_iff.1 hbc i)

end CategorySet

end InfoFlow
