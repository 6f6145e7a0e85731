/-!
# Security levels

A security level says how secret a value is. Levels are ordered by *may flow
to*: `a ≤ b` when a value at `a` may go wherever a value at `b` may go. The
monitor needs a least level `bottom` for public data, a greatest level `top`,
and `join`, the level of a value computed from two others.

`Level` holds the operations. The laws stand in three classes, so that a theorem
asks for no more than it uses: `LawfulJoin` (an order in which `join` is the
least upper bound), `LawfulBottom` (`bottom` is the least level) and
`LawfulLevel` (`top` is the greatest). Small consequences stand below.
-/

namespace InfoFlow

/-- The operations of a set of security levels, each with its written name. -/
class Level (L : Type) extends LE L where
  bottom : L
  top : L
  join : L → L → L
  text : L → String
  decEq : DecidableEq L
  decLe : (a b : L) → Decidable (a ≤ b)

attribute [reducible, instance] Level.decEq Level.decLe

/-- The levels are ordered, and `join` is the least upper bound. -/
class LawfulJoin (L : Type) [Level L] : Prop where
  le_refl (a : L) : a ≤ a
  le_trans {a b c : L} : a ≤ b → b ≤ c → a ≤ c
  le_antisymm {a b : L} : a ≤ b → b ≤ a → a = b
  left_le_join (a b : L) : a ≤ Level.join a b
  right_le_join (a b : L) : b ≤ Level.join a b
  join_le {a b c : L} : a ≤ c → b ≤ c → Level.join a b ≤ c

/-- Moreover, `bottom` is the least level. -/
class LawfulBottom (L : Type) [Level L] : Prop extends LawfulJoin L where
  bottom_le (a : L) : Level.bottom ≤ a

/-- All laws of security levels: moreover, `top` is the greatest level. -/
class LawfulLevel (L : Type) [Level L] : Prop extends LawfulBottom L where
  le_top (a : L) : a ≤ Level.top

/-- A text that names no level of the lattice at hand. -/
structure UnknownLevel where
  text : String
deriving DecidableEq, Repr

def UnknownLevel.message (e : UnknownLevel) : String :=
  s!"Unknown security level '{e.text}'"

/-- Levels that can be named in a text. A failure carries the whole text. -/
class NamedLevel (L : Type) where
  parse : String → Except UnknownLevel L

namespace Level

variable {L : Type} [Level L]

/-- The level of a value computed from all of `levels`: their join, `bottom`
when there is none. -/
def joinAll (levels : List L) : L :=
  levels.foldl join bottom

def isBottom (a : L) : Bool := a = bottom

def isTop (a : L) : Bool := a = top

end Level

namespace LawfulJoin

open Level

variable {L : Type} [Level L] [LawfulJoin L]

theorem join_le_iff {a b c : L} : join a b ≤ c ↔ a ≤ c ∧ b ≤ c :=
  ⟨fun h => ⟨le_trans (left_le_join a b) h, le_trans (right_le_join a b) h⟩,
    fun h => join_le h.1 h.2⟩

theorem le_join_of_le_left {a b : L} (c : L) (h : a ≤ b) : a ≤ join b c :=
  le_trans h (left_le_join b c)

theorem le_join_of_le_right {a c : L} (b : L) (h : a ≤ c) : a ≤ join b c :=
  le_trans h (right_le_join b c)

/-- Two levels are equal when the same levels are above them. -/
theorem eq_of_forall_le_iff {a b : L} (h : ∀ c, a ≤ c ↔ b ≤ c) : a = b :=
  le_antisymm ((h b).2 (le_refl b)) ((h a).1 (le_refl a))

theorem join_comm (a b : L) : join a b = join b a :=
  eq_of_forall_le_iff fun c => by simp [join_le_iff, And.comm]

theorem join_assoc (a b c : L) : join (join a b) c = join a (join b c) :=
  eq_of_forall_le_iff fun d => by simp [join_le_iff, and_assoc]

theorem join_self (a : L) : join a a = a :=
  eq_of_forall_le_iff fun c => by simp [join_le_iff]

theorem join_eq_right {a b : L} : join a b = b ↔ a ≤ b :=
  ⟨fun h => h ▸ left_le_join a b,
    fun h => le_antisymm (join_le h (le_refl b)) (right_le_join a b)⟩

theorem join_eq_left {a b : L} : join a b = a ↔ b ≤ a := by
  rw [join_comm, join_eq_right]

end LawfulJoin

namespace LawfulBottom

open Level LawfulJoin

variable {L : Type} [Level L] [LawfulBottom L]

theorem join_bottom (a : L) : join a bottom = a :=
  le_antisymm (join_le (le_refl a) (bottom_le a)) (left_le_join a bottom)

theorem bottom_join (a : L) : join bottom a = a := by
  rw [join_comm, join_bottom]

/-- What is above all of `levels` is above their join. -/
theorem joinAll_le_iff {levels : List L} {c : L} :
    joinAll levels ≤ c ↔ ∀ level ∈ levels, level ≤ c := by
  have hfold : ∀ (rest : List L) (a : L),
      rest.foldl join a ≤ c ↔ a ≤ c ∧ ∀ level ∈ rest, level ≤ c := by
    intro rest
    induction rest with
    | nil => simp
    | cons level rest ih =>
        intro a
        rw [List.foldl_cons, ih, join_le_iff, and_assoc, List.forall_mem_cons]
  rw [joinAll, hfold]
  exact and_iff_right (bottom_le c)

end LawfulBottom

end InfoFlow
