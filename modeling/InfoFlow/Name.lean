import Std.Data.ExtTreeMap

/-!
# Names in a monitored program

Objects and arrays on the heap are known by a numeric handle, branch scopes by
a tag. Locals, fields and frames are plain strings.
-/

namespace InfoFlow

/-- The handle of an object or array on the heap: a 64-bit number. -/
structure Handle where
  raw : UInt64
deriving DecidableEq, Repr

namespace Handle

/-- A handle as it is written: `#7`. -/
def text (id : Handle) : String := s!"#{id.raw.toNat}"

/-- Handles are ordered by their number. -/
instance : Ord Handle where
  compare a b := compare a.raw b.raw

instance : Std.TransOrd Handle where
  eq_swap {a b} := by
    show compare a.raw b.raw = (compare b.raw a.raw).swap
    exact Std.OrientedCmp.eq_swap
  isLE_trans {a b c} hab hbc := by
    show (compare a.raw c.raw).isLE
    exact Std.TransCmp.isLE_trans (show (compare a.raw b.raw).isLE from hab) hbc

instance : Std.LawfulEqOrd Handle where
  compare_self {a} := by
    show compare a.raw a.raw = .eq
    exact Std.ReflCmp.compare_self
  eq_of_compare {a b} h := by
    have : a.raw = b.raw := Std.LawfulEqCmp.eq_of_compare (show compare a.raw b.raw = .eq from h)
    cases a; cases b; simp_all

end Handle

/-- The tag of a branch scope; the exit of a scope must name the tag of its
entry. -/
structure Tag where
  text : String
deriving DecidableEq, Repr

/-- The tag of a numbered program site: its decimal text. -/
def Tag.ofSite (site : UInt32) : Tag := ⟨toString site.toNat⟩

end InfoFlow
