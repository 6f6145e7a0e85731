import Mathlib.Data.List.Nodup

/-!
# Entries under keys

The fields of an object and the entries of a table are lists of values under keys. In a list
without repetitions a key leads to the one entry that has it; the entries that are left when
some keys are taken out lead where they led before. A field that may be left out is read as an
entry that may have been taken out, with a default.
-/

namespace InfoFlow

namespace Entries

/-! ## §1  Entries by their keys -/

variable {α β : Type} {entries : List (String × α)}

theorem lookup_of_not_mem {key : String} (hkey : key ∉ entries.map Prod.fst) :
    entries.lookup key = none := by
  rw [List.lookup_eq_none_iff]
  intro entry hentry
  rw [bne_iff_ne]
  rintro rfl
  exact hkey (List.mem_map_of_mem hentry)

theorem lookup_of_mem (hkeys : (entries.map Prod.fst).Nodup) {entry : String × α}
    (hentry : entry ∈ entries) : entries.lookup entry.1 = some entry.2 := by
  obtain ⟨before, after, rfl⟩ := List.append_of_mem hentry
  rw [List.map_append, List.map_cons, List.nodup_middle, List.nodup_cons, List.mem_append,
    not_or] at hkeys
  rw [List.lookup_append, lookup_of_not_mem hkeys.1.1, Option.none_or, List.lookup_cons_self]

/-- The entries that are left without these keys, with their values changed. -/
def remaining (dropped : String → Bool) (change : α → β) (entries : List (String × α)) :
    List (String × β) :=
  (entries.filter fun entry => !dropped entry.1).map fun entry => (entry.1, change entry.2)

variable (dropped : String → Bool) (change : α → β)

theorem remaining_cons (entry : String × α) (entries : List (String × α)) :
    remaining dropped change (entry :: entries) =
      if dropped entry.1 then remaining dropped change entries
      else (entry.1, change entry.2) :: remaining dropped change entries := by
  by_cases hdropped : dropped entry.1 = true
  · rw [if_pos hdropped, remaining, List.filter_cons_of_neg (by simp [hdropped])]
    rfl
  · rw [if_neg hdropped, remaining, List.filter_cons_of_pos (by simp [hdropped]), List.map_cons]
    rfl

theorem remaining_append (entries more : List (String × α)) :
    remaining dropped change (entries ++ more) =
      remaining dropped change entries ++ remaining dropped change more := by
  rw [remaining, List.filter_append, List.map_append]
  rfl

/-- It makes no difference whether values are changed before or after keys are taken out. -/
theorem remaining_map {γ : Type} (change' : γ → α) (entries : List (String × γ)) :
    remaining dropped change (entries.map fun entry => (entry.1, change' entry.2)) =
      remaining dropped (fun value => change (change' value)) entries := by
  rw [remaining, List.filter_map, List.map_map]
  rfl

theorem map_fst_remaining : (remaining dropped change entries).map Prod.fst =
    (entries.map Prod.fst).filter fun key => !dropped key := by
  rw [remaining, List.map_map, List.filter_map]
  rfl

theorem nodup_remaining (hkeys : (entries.map Prod.fst).Nodup) :
    ((remaining dropped change entries).map Prod.fst).Nodup := by
  rw [map_fst_remaining]
  exact hkeys.filter _

/-- **What is found in the entries that are left**: nothing under a key that was taken out, and
what was found before under another. -/
theorem lookup_remaining (key : String) :
    (remaining dropped change entries).lookup key =
      if dropped key then none else (entries.lookup key).map change := by
  induction entries with
  | nil => simp [remaining]
  | cons entry entries ih =>
      obtain ⟨other, value⟩ := entry
      rw [remaining_cons]
      by_cases hkey : key = other
      · subst hkey
        rw [List.lookup_cons_self]
        by_cases hdropped : dropped key = true
        · rw [if_pos hdropped, ih, if_pos hdropped, if_pos hdropped]
        · rw [if_neg hdropped, if_neg hdropped, List.lookup_cons_self, Option.map_some]
      · have hother : (key == other) = false := beq_eq_false_iff_ne.2 hkey
        rw [List.lookup_cons, hother, ← ih]
        by_cases hdropped : dropped other = true
        · rw [if_pos hdropped]
        · rw [if_neg hdropped, List.lookup_cons, hother]

/-! ## §2  Fields that may be left out -/

/-- A field that may have been taken out has its value or the default. -/
theorem elim_ite (decode : β → Option α) {field : β} {value : α} (h : decode field = some value)
    (default : α) (isDropped : Bool) :
    (if isDropped then none else some field).elim (some default) decode =
      some (if isDropped then default else value) := by
  cases isDropped with
  | false => exact h
  | true => rfl

/-- A field that is not written when there is no value for it. -/
theorem elim_optional (decode : β → Option (Option α)) {encode : α → β}
    (h : ∀ value, decode (encode value) = some (some value)) (value : Option α)
    (isDropped : Bool) :
    (if isDropped then none else value.map encode).elim (some none) decode =
      some (if isDropped then none else value) := by
  cases value with
  | none => cases isDropped <;> rfl
  | some value => exact elim_ite decode (h value) none isDropped

end Entries

end InfoFlow
