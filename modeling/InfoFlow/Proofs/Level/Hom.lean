import InfoFlow.Level.Chain

/-!
# Maps between levels

A map between two sets of levels is a `LevelHom` if it keeps what the monitor
computes with: the least level, joins, and the order. Such a map may take
different levels for one, as the `view` of an observer does, who tells only what
flows to him from what does not. A `LevelEmbedding` takes no two levels for one;
it reflects the order and keeps the greatest level and the written names, as `LOW`
and `HIGH` are kept in a longer chain (`TwoLevel.inThree`).
-/

namespace InfoFlow

open Level (bottom top join text joinAll)
open LawfulJoin LawfulBottom

variable {L M : Type} [Level L] [Level M]

/-! ## §1  Homomorphisms and embeddings -/

/-- A map that keeps the least level, joins and the order. -/
structure LevelHom (f : L → M) : Prop where
  map_bottom : f bottom = bottom
  map_join : ∀ a b, f (join a b) = join (f a) (f b)
  map_le : ∀ {a b}, a ≤ b → f a ≤ f b

/-- A homomorphism that reflects the order, and keeps the greatest level and the
written names. -/
structure LevelEmbedding (f : L → M) : Prop extends LevelHom f where
  le_of_map_le : ∀ {a b}, f a ≤ f b → a ≤ b
  map_eq_top : ∀ {a}, f a = top ↔ a = top
  map_text : ∀ a, text (f a) = text a

variable {f : L → M}

theorem LevelHom.map_foldl_join (h : LevelHom f) (start : L) (levels : List L) :
    f (levels.foldl join start) = (levels.map f).foldl join (f start) := by
  induction levels generalizing start with
  | nil => rfl
  | cons level levels ih => rw [List.foldl_cons, ih, h.map_join, List.map_cons, List.foldl_cons]

theorem LevelHom.map_joinAll (h : LevelHom f) (levels : List L) :
    f (joinAll levels) = joinAll (levels.map f) := by
  rw [joinAll, h.map_foldl_join, h.map_bottom, joinAll]

theorem LevelHom.map_getD (h : LevelHom f) (level? : Option L) :
    f (level?.getD bottom) = (level?.map f).getD bottom := by
  cases level? with
  | none => exact h.map_bottom
  | some level => rfl

/-! ## §2  What an observer tells apart -/

/-- The level as an observer at `l` sees it: public if it flows to `l`. -/
def view (l a : L) : TwoLevel := if a ≤ l then .low else .high

theorem view_of_le {l a : L} (h : a ≤ l) : view l a = .low := if_pos h

theorem view_of_not_le {l a : L} (h : ¬ a ≤ l) : view l a = .high := if_neg h

theorem levelHom_view [LawfulBottom L] (l : L) : LevelHom (view l) where
  map_bottom := view_of_le (bottom_le l)
  map_join := by
    intro a b
    by_cases ha : a ≤ l
    · by_cases hb : b ≤ l
      · rw [view_of_le (join_le ha hb), view_of_le ha, view_of_le hb]
        rfl
      · have hjoin : ¬ join a b ≤ l := fun h => hb (join_le_iff.1 h).2
        rw [view_of_not_le hjoin, view_of_le ha, view_of_not_le hb]
        rfl
    · have hjoin : ¬ join a b ≤ l := fun h => ha (join_le_iff.1 h).1
      rw [view_of_not_le hjoin, view_of_not_le ha]
      cases view l b <;> rfl
  map_le := by
    intro a b hab
    by_cases hb : b ≤ l
    · rw [view_of_le (le_trans hab hb), view_of_le hb]
      exact le_refl _
    · rw [view_of_not_le hb]
      exact LawfulLevel.le_top _

/-! ## §3  The short chain in the long one -/

/-- Public and secret, with nothing between them. -/
def TwoLevel.inThree : TwoLevel → ThreeLevel
  | low => .low
  | high => .high

theorem levelEmbedding_inThree : LevelEmbedding TwoLevel.inThree where
  map_bottom := rfl
  map_join := by
    intro a b
    cases a <;> cases b <;> rfl
  map_le := by
    intro a b
    cases a <;> cases b <;> decide
  le_of_map_le := by
    intro a b
    cases a <;> cases b <;> decide
  map_eq_top := by
    intro a
    cases a <;> decide
  map_text := by
    intro a
    cases a <;> rfl

end InfoFlow
