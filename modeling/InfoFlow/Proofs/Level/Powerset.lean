import Mathlib.Tactic.ByContra
import Mathlib.Tactic.Tauto
import InfoFlow.Level.CategorySet

/-!
# Sets of categories are a powerset

A set of categories below `n` is any choice of them: it is known by the categories in it, and
joins, order and bounds are those of sets (`IsPowerset`, `KeepsLaws`).

For `n` up to 32 a set fits a machine word of 32 bits, one for each category. `CategoryWord` is
the arithmetic of such words, with masks, shifts and complements; a shift that leaves the word
is an error there. Wherever a set comes from, the word arithmetic never makes this error, ends
with the word of the set, and sets no bit outside the categories (`FitsWords`).
-/

namespace InfoFlow

open Level (bottom top join)

/-! ## §1  The laws of joins and order -/

/-- The laws of security levels, in full. -/
structure KeepsLaws (L : Type) [Level L] : Prop where
  join_comm : ∀ a b : L, join a b = join b a
  join_assoc : ∀ a b c : L, join (join a b) c = join a (join b c)
  join_self : ∀ a : L, join a a = a
  le_join : ∀ a b : L, a ≤ join a b ∧ b ≤ join a b
  join_le : ∀ a b c : L, a ≤ c → b ≤ c → join a b ≤ c
  bounds : ∀ a : L, bottom ≤ a ∧ a ≤ top
  join_bottom : ∀ a : L, join a bottom = a
  join_top : ∀ a : L, join a top = top
  le_antisymm : ∀ a b : L, a ≤ b → b ≤ a → a = b
  le_iff_join : ∀ a b : L, a ≤ b ↔ join a b = b

theorem LawfulLevel.keepsLaws (L : Type) [Level L] [LawfulLevel L] : KeepsLaws L where
  join_comm := LawfulJoin.join_comm
  join_assoc := LawfulJoin.join_assoc
  join_self := LawfulJoin.join_self
  le_join a b := ⟨LawfulJoin.left_le_join a b, LawfulJoin.right_le_join a b⟩
  join_le _ _ _ := LawfulJoin.join_le
  bounds a := ⟨LawfulBottom.bottom_le a, LawfulLevel.le_top a⟩
  join_bottom := LawfulBottom.join_bottom
  join_top a := LawfulJoin.join_eq_right.2 (LawfulLevel.le_top a)
  le_antisymm _ _ := LawfulJoin.le_antisymm
  le_iff_join _ _ := LawfulJoin.join_eq_right.symm

/-! ## §2  Sets in machine words -/

/-- A shift that leaves the word. -/
structure ShiftOverflow where
  place : Nat
deriving DecidableEq, Repr

namespace CategoryWord

/-- The word with one bit. -/
def bit (place : Nat) : Except ShiftOverflow (BitVec 32) :=
  if place < 32 then .ok (1#32 <<< place) else .error ⟨place⟩

/-- The bits of the categories below `n`. -/
def mask (n : Nat) : Except ShiftOverflow (BitVec 32) :=
  if 32 ≤ n then .ok (BitVec.allOnes 32) else (bit n).map (· - 1#32)

/-- The bits inside the mask. -/
def ofBits (n : Nat) (bits : BitVec 32) : Except ShiftOverflow (BitVec 32) :=
  (mask n).map (bits &&& ·)

/-- The bits, if there are none outside the mask. -/
def ofBits? (n : Nat) (bits : BitVec 32) : Except ShiftOverflow (Option (BitVec 32)) :=
  (mask n).map fun mask => if bits &&& ~~~mask ≠ 0#32 then none else some bits

def category? (n index : Nat) : Except ShiftOverflow (Option (BitVec 32)) :=
  if index < n then (bit index).map some else .ok none

def with? (n : Nat) (word : BitVec 32) (index : Nat) :
    Except ShiftOverflow (Option (BitVec 32)) :=
  (category? n index).map (Option.map (word ||| ·))

def contains (n : Nat) (word : BitVec 32) (index : Nat) : Except ShiftOverflow Bool :=
  if index < n then (bit index).map fun bit => word &&& bit != 0 else .ok false

def le (a b : BitVec 32) : Bool := a &&& ~~~b == 0#32

/-- The word with the categories added that the parts name. -/
def addParts? (n : Nat) : List (List Char) → BitVec 32 → Except ShiftOverflow (Option (BitVec 32))
  | [], word => .ok (some word)
  | part :: parts, word =>
      match Text.natural? part with
      | none => .ok none
      | some index => do
          match ← with? n word index with
          | none => return none
          | some word => addParts? n parts word

def parse? (n : Nat) (text : String) : Except ShiftOverflow (Option (BitVec 32)) :=
  match CategorySet.inner? text with
  | none => .ok none
  | some inner => addParts? n (CategorySet.parts inner) 0

end CategoryWord

namespace CategorySet

variable {n : Nat}

/-- The word with the bits of a set. -/
def word (a : CategorySet n) : BitVec 32 := a.mask.setWidth 32

/-- Where a set of categories comes from. -/
inductive Origin where
  | default
  | bottom
  | top
  | ofBits (bits : UInt32)
  /-- From bits of which none may lie outside the categories. -/
  | exactBits (bits : UInt32)
  | category (index : Nat)
  /-- From a set, by adding one category. -/
  | adding (base : Origin) (index : Nat)
  | join (a b : Origin)
  | parsing (text : String)
deriving DecidableEq, Repr

namespace Origin

/-- The set, if it comes about. -/
def set? (n : Nat) : Origin → Option (CategorySet n)
  | default => some Inhabited.default
  | bottom => some Level.bottom
  | top => some Level.top
  | ofBits bits => some (CategorySet.ofBits bits.toNat)
  | exactBits bits => (CategorySet.ofBits? bits.toNat).toOption
  | category index => category? index
  | adding base index => (base.set? n).bind (·.with? index)
  | join a b => (a.set? n).bind fun a => (b.set? n).map (Level.join a)
  | parsing text => (NamedLevel.parse text).toOption

/-- What comes about in machine words. -/
def word? (n : Nat) : Origin → Except ShiftOverflow (Option (BitVec 32))
  | default => .ok (some 0)
  | bottom => .ok (some 0)
  | top => (CategoryWord.mask n).map some
  | ofBits bits => (CategoryWord.ofBits n bits.toBitVec).map some
  | exactBits bits => CategoryWord.ofBits? n bits.toBitVec
  | category index => CategoryWord.category? n index
  | adding base index => do
      match ← base.word? n with
      | none => return none
      | some word => CategoryWord.with? n word index
  | join a b => do
      match ← a.word? n with
      | none => return none
      | some word => return (← b.word? n).map (word ||| ·)
  | parsing text => CategoryWord.parse? n text

end Origin

/-! ## §3  Which categories a set holds -/

theorem contains_of_le (a : CategorySet n) {i : Nat} (h : n ≤ i) : a.contains i = false :=
  BitVec.getLsbD_of_ge a.mask i h

theorem contains_ofBits (bits i : Nat) :
    (ofBits bits : CategorySet n).contains i = (decide (i < n) && bits.testBit i) :=
  BitVec.getLsbD_ofNat n bits i

theorem category?_eq_some {i : Nat} {a : CategorySet n} :
    category? i = some a ↔ i < n ∧ ∀ j, a.contains j = decide (j = i) := by
  unfold category?
  constructor
  · intro h
    split at h
    · rename_i hi
      obtain rfl := Option.some_inj.1 h
      refine ⟨hi, fun j => ?_⟩
      rw [contains, BitVec.getLsbD_twoPow, decide_eq_true hi, Bool.true_and]
      exact decide_eq_decide.2 eq_comm
    · cases h
  · rintro ⟨hi, ha⟩
    rw [if_pos hi]
    refine congrArg some (eq_of_contains fun j => ?_)
    rw [ha, contains, BitVec.getLsbD_twoPow, decide_eq_true hi, Bool.true_and]
    exact decide_eq_decide.2 eq_comm

theorem category?_eq_none {i : Nat} : (category? i : Option (CategorySet n)) = none ↔ n ≤ i := by
  unfold category?
  split <;> simp <;> omega

theorem with?_eq_some {i : Nat} {a b : CategorySet n} :
    a.with? i = some b ↔ i < n ∧ ∀ j, b.contains j = (a.contains j || decide (j = i)) := by
  unfold with?
  rw [Option.map_eq_some_iff]
  constructor
  · rintro ⟨single, hsingle, rfl⟩
    obtain ⟨hi, hcontains⟩ := category?_eq_some.1 hsingle
    exact ⟨hi, fun j => by rw [contains_union, hcontains]⟩
  · rintro ⟨hi, hb⟩
    obtain ⟨single, hsingle⟩ : ∃ single, (category? i : Option (CategorySet n)) = some single :=
      ⟨_, if_pos hi⟩
    refine ⟨single, hsingle, eq_of_contains fun j => ?_⟩
    rw [contains_union, (category?_eq_some.1 hsingle).2, hb]

theorem with?_eq_none {i : Nat} {a : CategorySet n} : a.with? i = none ↔ n ≤ i := by
  rw [with?, Option.map_eq_none_iff, category?_eq_none]

theorem ofBits?_eq_ok {bits : Nat} {a : CategorySet n} :
    ofBits? bits = .ok a ↔ (∀ i, n ≤ i → bits.testBit i = false) ∧ a = ofBits bits := by
  have hinside : bits < Nat.pow 2 n ↔ ∀ i, n ≤ i → bits.testBit i = false := by
    refine ⟨fun h i hi => ?_, fun h => Nat.lt_pow_two_of_testBit bits h⟩
    exact Nat.testBit_lt_two_pow (Nat.lt_of_lt_of_le h (Nat.pow_le_pow_right (by decide) hi))
  unfold ofBits?
  rw [← hinside]
  by_cases h : bits < Nat.pow 2 n
  · rw [if_pos h, Except.ok.injEq, eq_comm]
    exact (and_iff_right h).symm
  · rw [if_neg h]
    exact ⟨nofun, fun hok => absurd hok.1 h⟩

/-- **Sets of categories are all choices of them**: equal if they hold the same ones, with union
for the join, inclusion for the order, and nothing and everything for the bounds. -/
structure IsPowerset (n : Nat) : Prop where
  eq_iff : ∀ a b : CategorySet n, a = b ↔ ∀ i, a.contains i = b.contains i
  exists_set : ∀ chosen : Nat → Bool, ∃ a : CategorySet n,
    ∀ i, a.contains i = (decide (i < n) && chosen i)
  contains_join : ∀ (a b : CategorySet n) i,
    (join a b).contains i = (a.contains i || b.contains i)
  le_iff : ∀ a b : CategorySet n, a ≤ b ↔ ∀ i, a.contains i = true → b.contains i = true
  contains_bottom : ∀ i, (bottom : CategorySet n).contains i = false
  contains_top : ∀ i, (top : CategorySet n).contains i = decide (i < n)
  category?_eq_none : ∀ i, (category? i : Option (CategorySet n)) = none ↔ n ≤ i
  category?_eq_some : ∀ i (a : CategorySet n),
    category? i = some a ↔ i < n ∧ ∀ j, a.contains j = decide (j = i)
  with?_eq_none : ∀ (a : CategorySet n) i, a.with? i = none ↔ n ≤ i
  with?_eq_some : ∀ (a b : CategorySet n) i,
    a.with? i = some b ↔ i < n ∧ ∀ j, b.contains j = (a.contains j || decide (j = i))
  contains_ofBits : ∀ bits i,
    (ofBits bits : CategorySet n).contains i = (decide (i < n) && bits.testBit i)
  ofBits?_eq_ok : ∀ bits (a : CategorySet n),
    ofBits? bits = .ok a ↔ (∀ i, n ≤ i → bits.testBit i = false) ∧ a = ofBits bits

/-- Categories may be put into a set one by one. -/
theorem exists_contains (indices : List Nat) (hbelow : ∀ i ∈ indices, i < n) :
    ∃ a : CategorySet n, ∀ i, a.contains i = decide (i ∈ indices) := by
  induction indices with
  | nil => exact ⟨empty, fun i => by simp⟩
  | cons index indices ih =>
      obtain ⟨hindex, hrest⟩ := List.forall_mem_cons.1 hbelow
      obtain ⟨a, ha⟩ := ih hrest
      obtain ⟨b, hb⟩ := Option.ne_none_iff_exists'.1
        (mt (with?_eq_none (a := a)).1 (Nat.not_le.2 hindex))
      refine ⟨b, fun i => ?_⟩
      rw [(with?_eq_some.1 hb).2, ha]
      simp [Bool.or_comm]

theorem isPowerset (n : Nat) : IsPowerset n where
  eq_iff _ _ := ⟨fun h i => by rw [h], eq_of_contains⟩
  exists_set chosen := by
    obtain ⟨a, ha⟩ := exists_contains ((List.range n).filter chosen) (by simp; tauto)
    exact ⟨a, fun i => by simp [ha]⟩
  contains_join := contains_union
  le_iff _ _ := le_iff
  contains_bottom := contains_empty
  contains_top := contains_full
  category?_eq_none _ := category?_eq_none
  category?_eq_some _ _ := category?_eq_some
  with?_eq_none _ _ := with?_eq_none
  with?_eq_some _ _ _ := with?_eq_some
  contains_ofBits := contains_ofBits
  ofBits?_eq_ok _ _ := ofBits?_eq_ok

/-! ## §4  The word arithmetic -/

theorem and_not_eq_zero {a b : BitVec 32} :
    a &&& ~~~b = 0#32 ↔ ∀ i, a.getLsbD i = true → b.getLsbD i = true :=
  le_iff (a := ⟨a⟩) (b := ⟨b⟩)

section Words

variable (hn : n ≤ 32)
include hn

theorem getLsbD_word (a : CategorySet n) (i : Nat) : a.word.getLsbD i = a.contains i := by
  rw [word, BitVec.getLsbD_setWidth]
  refine Bool.and_eq_right_iff_imp.2 fun hi => decide_eq_true ?_
  exact Nat.lt_of_lt_of_le (BitVec.lt_of_getLsbD hi) hn

theorem eq_word {bits : BitVec 32} {a : CategorySet n} (h : ∀ i, bits.getLsbD i = a.contains i) :
    bits = a.word :=
  BitVec.eq_of_getLsbD_eq fun i _ => (h i).trans (getLsbD_word hn a i).symm

theorem bit_eq {i : Nat} (hi : i < n) : CategoryWord.bit i = .ok (1#32 <<< i) :=
  if_pos (Nat.lt_of_lt_of_le hi hn)

theorem mask_eq : CategoryWord.mask n = .ok (full : CategorySet n).word := by
  unfold CategoryWord.mask
  by_cases hall : 32 ≤ n
  · obtain rfl : n = 32 := Nat.le_antisymm hn hall
    rfl
  · have hbit : CategoryWord.bit n = .ok (1#32 <<< n) := if_pos (Nat.lt_of_not_le hall)
    have hpositive : 0 < 2 ^ n := Nat.two_pow_pos n
    have hsmall : 2 ^ n < 2 ^ 32 := Nat.pow_lt_pow_right (by decide) (Nat.lt_of_not_le hall)
    have hshift : (1#32 <<< n).toNat = 2 ^ n := by
      rw [BitVec.toNat_shiftLeft, BitVec.toNat_ofNat, Nat.shiftLeft_eq, Nat.one_mod, Nat.one_mul,
        Nat.mod_eq_of_lt hsmall]
    rw [if_neg hall, hbit]
    refine congrArg Except.ok (BitVec.eq_of_toNat_eq ?_)
    simp only [word, full, BitVec.toNat_sub, BitVec.toNat_ofNat, BitVec.toNat_setWidth,
      BitVec.toNat_allOnes, hshift]
    omega

theorem ofBits_eq (bits : UInt32) :
    CategoryWord.ofBits n bits.toBitVec = .ok (ofBits bits.toNat : CategorySet n).word := by
  unfold CategoryWord.ofBits
  rw [mask_eq hn]
  refine congrArg Except.ok (eq_word hn fun i => ?_)
  rw [BitVec.getLsbD_and, getLsbD_word hn, contains_full, contains_ofBits, Bool.and_comm]
  rfl

theorem ofBits?_eq (bits : UInt32) :
    CategoryWord.ofBits? n bits.toBitVec =
      .ok ((ofBits? bits.toNat).toOption.map (word (n := n))) := by
  have hinside : bits.toBitVec &&& ~~~(full : CategorySet n).word = 0#32 ↔
      ∀ i, n ≤ i → bits.toNat.testBit i = false := by
    simp only [and_not_eq_zero, getLsbD_word hn, contains_full, decide_eq_true_eq]
    refine forall_congr' fun i => ?_
    show (bits.toNat.testBit i = true → i < n) ↔ _
    rw [← Nat.not_le, ← Bool.not_eq_true, imp_not_comm]
  unfold CategoryWord.ofBits?
  rw [mask_eq hn]
  refine congrArg Except.ok ?_
  cases hset : (ofBits? bits.toNat : Except UnknownLevel (CategorySet n)) with
  | ok a =>
      obtain ⟨hnone, rfl⟩ := ofBits?_eq_ok.1 hset
      refine (if_neg (not_not.2 (hinside.2 hnone))).trans (congrArg some (eq_word hn fun i => ?_))
      rw [contains_ofBits]
      refine (Bool.and_eq_right_iff_imp.2 fun hi => decide_eq_true ?_).symm
      by_contra hout
      exact Bool.eq_false_iff.1 (hnone i (Nat.le_of_not_lt hout)) hi
  | error e =>
      have hsome : ¬∀ i, n ≤ i → bits.toNat.testBit i = false := by
        intro hnone
        rw [ofBits?_eq_ok.2 ⟨hnone, rfl⟩] at hset
        cases hset
      exact if_pos (mt hinside.1 hsome)

theorem category?_eq (i : Nat) :
    CategoryWord.category? n i = .ok ((category? i).map (word (n := n))) := by
  unfold CategoryWord.category? category?
  by_cases hi : i < n
  · rw [if_pos hi, if_pos hi, bit_eq hn hi]
    refine congrArg (Except.ok ∘ some) (eq_word hn fun j => ?_)
    rw [← BitVec.twoPow_eq, BitVec.getLsbD_twoPow, contains, BitVec.getLsbD_twoPow,
      decide_eq_true hi, decide_eq_true (Nat.lt_of_lt_of_le hi hn)]
  · rw [if_neg hi, if_neg hi]
    rfl

theorem word_union (a b : CategorySet n) : a.word ||| b.word = (a.union b).word :=
  eq_word hn fun i => by
    rw [BitVec.getLsbD_or, getLsbD_word hn, getLsbD_word hn, contains_union]

theorem with?_eq (a : CategorySet n) (i : Nat) :
    CategoryWord.with? n a.word i = .ok ((a.with? i).map word) := by
  unfold CategoryWord.with? with?
  rw [category?_eq hn]
  refine congrArg Except.ok ?_
  cases (category? i : Option (CategorySet n)) with
  | none => rfl
  | some single => exact congrArg some (word_union hn a single)

theorem contains_eq (a : CategorySet n) (i : Nat) :
    CategoryWord.contains n a.word i = .ok (a.contains i) := by
  unfold CategoryWord.contains
  by_cases hi : i < n
  · rw [if_pos hi, bit_eq hn hi, ← BitVec.twoPow_eq]
    refine congrArg Except.ok ?_
    show (a.word &&& BitVec.twoPow 32 i != 0#32) = a.contains i
    rw [BitVec.and_twoPow, getLsbD_word hn]
    cases a.contains i with
    | false => rfl
    | true =>
        refine bne_iff_ne.2 fun hzero => ?_
        have hbit := congrArg (BitVec.getLsbD · i) hzero
        simp [Nat.lt_of_lt_of_le hi hn] at hbit
  · rw [if_neg hi, contains_of_le a (Nat.le_of_not_lt hi)]

theorem le_eq (a b : CategorySet n) : CategoryWord.le a.word b.word = decide (a ≤ b) := by
  refine Bool.eq_iff_iff.2 ?_
  rw [CategoryWord.le, beq_iff_eq, decide_eq_true_eq, and_not_eq_zero, le_iff]
  simp only [getLsbD_word hn]

theorem addParts?_eq (parts : List (List Char)) (a : CategorySet n) :
    CategoryWord.addParts? n parts a.word =
      .ok ((parts.foldlM (fun (set : CategorySet n) part => do
        set.with? (← Text.natural? part)) a).map word) := by
  induction parts generalizing a with
  | nil => rfl
  | cons part parts ih =>
      rw [CategoryWord.addParts?, List.foldlM_cons]
      cases Text.natural? part with
      | none => rfl
      | some index =>
          simp only [with?_eq hn, Option.bind_eq_bind, Option.bind_some]
          cases a.with? index with
          | none => rfl
          | some b => exact ih b

theorem zero_eq_word : 0#32 = (empty : CategorySet n).word :=
  eq_word hn fun i => by simp

theorem parse?_eq (text : String) :
    CategoryWord.parse? n text =
      .ok ((NamedLevel.parse text : Except UnknownLevel (CategorySet n)).toOption.map word) := by
  rw [toOption_parse, CategoryWord.parse?]
  cases inner? text with
  | none => rfl
  | some inner =>
      show CategoryWord.addParts? n (parts inner) 0#32 = _
      rw [zero_eq_word hn]
      exact addParts?_eq hn (parts inner) empty

/-- **Word arithmetic makes no overflow** and ends with the word of the set. -/
theorem word?_eq (origin : Origin) : origin.word? n = .ok ((origin.set? n).map word) := by
  induction origin with
  | default => exact congrArg (Except.ok ∘ some) (zero_eq_word hn)
  | bottom => exact congrArg (Except.ok ∘ some) (zero_eq_word hn)
  | top => exact congrArg (Except.map some) (mask_eq hn)
  | ofBits bits => exact congrArg (Except.map some) (ofBits_eq hn bits)
  | exactBits bits => exact ofBits?_eq hn bits
  | category index => exact category?_eq hn index
  | adding base index ih =>
      rw [Origin.word?, Origin.set?, ih]
      cases base.set? n with
      | none => rfl
      | some a => exact with?_eq hn a index
  | join a b iha ihb =>
      rw [Origin.word?, Origin.set?, iha, ihb]
      cases a.set? n with
      | none => rfl
      | some a =>
          cases b.set? n with
          | none => rfl
          | some b => exact congrArg (Except.ok ∘ some) (word_union hn a b)
  | parsing text => exact parse?_eq hn text

/-- **Sets of categories fit machine words.** Wherever a set comes from, the arithmetic of words
comes to its word, or to nothing if there is no set, and makes no overflow. The word has the bits
of the set and none outside the categories, and it is asked for members, compared and ordered as
the set is. -/
structure FitsWords (n : Nat) : Prop where
  origin : ∀ origin : Origin, origin.word? n = .ok ((origin.set? n).map word)
  bits : ∀ a : CategorySet n, a.word.toNat = a.bits
  inside : ∀ (a : CategorySet n) i, n ≤ i → a.word.getLsbD i = false
  contains : ∀ (a : CategorySet n) i, CategoryWord.contains n a.word i = .ok (a.contains i)
  eq_iff : ∀ a b : CategorySet n, a.word = b.word ↔ a = b
  le : ∀ a b : CategorySet n, CategoryWord.le a.word b.word = decide (a ≤ b)

theorem fitsWords : FitsWords n where
  origin := word?_eq hn
  bits a := BitVec.toNat_setWidth_of_le hn
  inside a i hi := (getLsbD_word hn a i).trans (contains_of_le a hi)
  contains := contains_eq hn
  eq_iff a b := by
    refine ⟨fun h => eq_of_contains fun i => ?_, fun h => by rw [h]⟩
    rw [← getLsbD_word hn, ← getLsbD_word hn, h]
  le := le_eq hn

end Words

/-! ## §5  The powerset -/

/-- **Sets of categories are the powerset of up to 32 categories.** Their machine words never
overflow a shift and have no bit outside the categories, whatever they come from; all choices of
categories are sets, with union, inclusion, nothing and everything for the join, the order and
the bounds; and all laws of joins and order hold. -/
theorem powerset (hn : n ≤ 32) : FitsWords n ∧ IsPowerset n ∧ KeepsLaws (CategorySet n) :=
  ⟨fitsWords hn, isPowerset n, LawfulLevel.keepsLaws (CategorySet n)⟩

section Witness

/-- All the ways together, up to the last of 32 categories. -/
def roundabout : Origin :=
  .join (.adding (.parsing " { 031,,+7 } ") 0) (.join (.exactBits 0x80000002) (.category 31))

theorem powerset_roundabout :
    32 ≤ 32 ∧ roundabout.word? 32 = .ok (some 0x80000083) ∧
      (Origin.adding .top 32).word? 32 = .ok none ∧
      (top : CategorySet 32).word.toNat = 0xFFFFFFFF := by
  obtain ⟨hwords, hsets, -⟩ := powerset (Nat.le_refl 32)
  refine ⟨Nat.le_refl 32, ?_, ?_, ?_⟩
  · rw [hwords.origin]
    rfl
  · rw [hwords.origin, Origin.set?, Origin.set?, Option.bind_some,
      (hsets.with?_eq_none top 32).2 (Nat.le_refl 32)]
    rfl
  · rw [hwords.bits]
    rfl

end Witness

end CategorySet

end InfoFlow
