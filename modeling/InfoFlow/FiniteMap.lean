import Std.Data.ExtTreeMap

/-!
# Finite maps

Which changes of a finite map come to the same: a value put where it is already, a value put in
the place of another, changes at different keys, changes of all values.
-/

namespace InfoFlow

namespace FiniteMap

open Std (ExtTreeMap)

variable {κ α β : Type} [Ord κ] [Std.TransOrd κ] [Std.LawfulEqOrd κ] {values : ExtTreeMap κ α}
  {key other : κ}

/-! ## One key -/

/-- Putting a value in its own place changes nothing. -/
theorem insert_of_getElem? {value : α} (h : values[key]? = some value) :
    values.insert key value = values := by
  ext key' value'
  rw [ExtTreeMap.getElem?_insert]
  split
  · rename_i hkey
    rw [← Std.compare_eq_iff_eq.1 hkey, h]
  · rfl

theorem insert_insert (values : ExtTreeMap κ α) (key : κ) (a b : α) :
    (values.insert key a).insert key b = values.insert key b := by
  ext key' value'
  simp only [ExtTreeMap.getElem?_insert]
  split <;> rfl

/-! ## Different keys -/

theorem insert_insert_of_ne (values : ExtTreeMap κ α) (hne : other ≠ key) (a b : α) :
    (values.insert other a).insert key b = (values.insert key b).insert other a := by
  ext key' value'
  simp only [ExtTreeMap.getElem?_insert]
  split
  · rename_i hkey
    have hnot : compare other key' ≠ .eq := by
      intro hother
      exact hne ((Std.compare_eq_iff_eq.1 hother).trans (Std.compare_eq_iff_eq.1 hkey).symm)
    rw [if_neg hnot]
  · rfl

theorem erase_insert_of_ne (values : ExtTreeMap κ α) (hne : other ≠ key) (b : α) :
    (values.erase other).insert key b = (values.insert key b).erase other := by
  ext key' value'
  simp only [ExtTreeMap.getElem?_insert, ExtTreeMap.getElem?_erase]
  split
  · rename_i hkey
    have hnot : compare other key' ≠ .eq := by
      intro hother
      exact hne ((Std.compare_eq_iff_eq.1 hother).trans (Std.compare_eq_iff_eq.1 hkey).symm)
    rw [if_neg hnot]
  · rfl

/-! ## All values -/

theorem map_empty (f : α → β) :
    (∅ : ExtTreeMap κ α).map (fun _ a => f a) = ∅ := by
  ext key value
  rw [ExtTreeMap.getElem?_map, ExtTreeMap.getElem?_empty, ExtTreeMap.getElem?_empty]
  rfl

/-- Changing all values of a map commutes with an insertion. -/
theorem map_insert (f : α → β) (values : ExtTreeMap κ α) (key : κ) (value : α) :
    (values.insert key value).map (fun _ a => f a) =
      (values.map fun _ a => f a).insert key (f value) := by
  ext key' value'
  rw [ExtTreeMap.getElem?_map, ExtTreeMap.getElem?_insert, ExtTreeMap.getElem?_insert,
    ExtTreeMap.getElem?_map]
  split <;> rfl

/-- So does a removal. -/
theorem map_erase (f : α → β) (values : ExtTreeMap κ α) (key : κ) :
    (values.erase key).map (fun _ a => f a) = (values.map fun _ a => f a).erase key := by
  ext key' value'
  rw [ExtTreeMap.getElem?_map, ExtTreeMap.getElem?_erase, ExtTreeMap.getElem?_erase,
    ExtTreeMap.getElem?_map]
  split <;> rfl

end FiniteMap

end InfoFlow
