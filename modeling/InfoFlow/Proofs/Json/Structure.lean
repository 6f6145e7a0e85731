import InfoFlow.Json.Value
import InfoFlow.Proofs.Entries

/-!
# Structures are taken apart as they are written

In an object without repetitions a key leads to the one value that it is given, if any, so that
reading the fields of a structure is looking them up (`Json.fields?_eq_lookup`).
-/

namespace InfoFlow

namespace Json

/-! ## §1  Fields -/

section Fields

variable {fields : List (String × Json)}

/-- The members of the object with these fields. -/
def members (fields : List (String × Json)) : List (Option String × Json) :=
  fields.map fun field => (some field.1, field.2)

theorem record_eq_object : record fields = .object (members fields) := rfl

/-- In a structure without repetitions each key has the value that is found for it, or none. -/
theorem filter_members (hkeys : (fields.map Prod.fst).Nodup) (key : String) :
    (members fields).filter (·.1 = some key) =
      ((fields.lookup key).map fun value => (some key, value)).toList := by
  induction fields with
  | nil => rfl
  | cons first rest ih =>
      obtain ⟨firstKey, value⟩ := first
      obtain ⟨hfirst, hrest⟩ := List.nodup_cons.1 hkeys
      rw [members, List.map_cons, ← members]
      by_cases hkey : firstKey = key
      · subst hkey
        rw [List.filter_cons_of_pos (by simp), ih hrest, Entries.lookup_of_not_mem hfirst,
          List.lookup_cons_self]
        rfl
      · rw [List.filter_cons_of_neg (by simpa using hkey), ih hrest, List.lookup_cons,
          beq_eq_false_iff_ne.2 (Ne.symm hkey)]

theorem mapM_map_eq_some {α β γ : Type} {f : β → Option γ} {g : α → β} {h : α → γ} {xs : List α}
    (heach : ∀ x ∈ xs, f (g x) = some (h x)) : (xs.map g).mapM f = some (xs.map h) := by
  induction xs with
  | nil => rfl
  | cons x xs ih =>
      rw [List.map_cons, List.mapM_cons, heach x List.mem_cons_self,
        ih fun y hy => heach y (List.mem_cons_of_mem x hy)]
      rfl

/-- **The fields of a structure are looked up by their keys**, those of other keys passed
over. -/
theorem fields?_eq_lookup (hkeys : (fields.map Prod.fst).Nodup) (keys : List String) :
    (record fields).fields? keys = some (keys.map (fields.lookup ·)) := by
  have hgiven : (members fields).all (·.1.isSome) = true := by
    simp [members]
  rw [record_eq_object, fields?, if_pos hgiven]
  rw [← List.map_id keys, List.map_map]
  refine mapM_map_eq_some fun key _ => ?_
  rw [id_eq, filter_members hkeys]
  cases hfound : fields.lookup key with
  | none => simp [hfound]
  | some value => simp [hfound]

/-- A structure with these fields and no others has their values. -/
theorem fields?_record {keys : List String} (hkeys : fields.map Prod.fst = keys)
    (hnodup : keys.Nodup) : (record fields).fields? keys = some (fields.map (some ·.2)) := by
  subst hkeys
  rw [fields?_eq_lookup hnodup, List.map_map]
  exact congrArg some (List.map_congr_left fun field hfield =>
    Entries.lookup_of_mem hnodup hfield)

end Fields

/-! ## §2  Values -/

@[simp] theorem text?_text (content : String) : (text content).text? = some content := rfl

@[simp] theorem word?_natural (n : UInt64) : (natural n.toNat).word? = some n := by
  have hsize : n.toNat < UInt64.size := n.toNat_lt
  unfold word?
  simp [natural, natural?, hsize]

@[simp] theorem required_some {α : Type} (decode : Json → Option α) (json : Json) :
    required decode (some json) = decode json := rfl

theorem list?_array_of_mem {α : Type} {decode : Json → Option α} {encode : α → Json}
    {values : List α} (h : ∀ a ∈ values, decode (encode a) = some a) :
    list? decode (.array (values.map encode)) = some values := by
  have hvalues : (values.map encode).mapM decode = some (values.map id) := mapM_map_eq_some h
  rw [List.map_id] at hvalues
  exact hvalues

theorem list?_array {α : Type} {decode : Json → Option α} {encode : α → Json}
    (h : ∀ a, decode (encode a) = some a) (values : List α) :
    list? decode (.array (values.map encode)) = some values :=
  list?_array_of_mem fun a _ => h a

end Json

end InfoFlow
