import InfoFlow.Proofs.Text.Decimal
import InfoFlow.Heap

/-!
# Ways to a slot

A slot of a record is reached by the name of a field or by the index of an element. Both
lead to the slots through strings, an index through its decimal text, and so two ways may
lead to one slot: two fields only if they are one, two elements only if they are one, and a
field and an element exactly if the name of the field is the decimal text of the index, with
no zero in front (`SlotPath.same_iff`).
-/

namespace InfoFlow

/-- A field, or an element. -/
inductive SlotPath where
  | field (name : String)
  | element (index : UInt64)
deriving DecidableEq, Repr

namespace SlotPath

/-- The string that leads to the slot. -/
def key : SlotPath → String
  | field name => name
  | element index => indexKey index

/-- The place that a fault names. -/
def place (id : Handle) : SlotPath → Place
  | field name => .field id name
  | element index => .element id (indexKey index)

/-- Two ways lead to the same slot of a record. -/
inductive Same : SlotPath → SlotPath → Prop
  | refl (path : SlotPath) : Same path path
  | ofField {name : String} {index : UInt64} (h : IsDecimal name.toList index.toNat) :
      Same (field name) (element index)
  | ofElement {name : String} {index : UInt64} (h : IsDecimal name.toList index.toNat) :
      Same (element index) (field name)

theorem toList_indexKey (index : UInt64) : (indexKey index).toList = Nat.toDigits 10 index.toNat :=
  Nat.toList_repr

/-- A name leads where an index leads if it is the decimal text of the index. -/
theorem isDecimal_iff_eq_indexKey {name : String} {index : UInt64} :
    IsDecimal name.toList index.toNat ↔ name = indexKey index := by
  rw [isDecimal_iff, ← toList_indexKey, String.toList_inj]

theorem indexKey_injective {index index' : UInt64} (h : indexKey index = indexKey index') :
    index = index' := by
  have hdecimal := isDecimal_iff_eq_indexKey.2 h.symm
  have hother := isDecimal_iff_eq_indexKey.2 (rfl : indexKey index' = indexKey index')
  exact UInt64.toNat_inj.1 (hdecimal.value.symm.trans hother.value)

/-- **Two ways lead to the same slot exactly if they have one key.** -/
theorem same_iff {path path' : SlotPath} : Same path path' ↔ path.key = path'.key := by
  constructor
  · rintro (_ | h | h)
    · rfl
    · exact isDecimal_iff_eq_indexKey.1 h
    · exact (isDecimal_iff_eq_indexKey.1 h).symm
  · intro hkey
    cases path with
    | field name =>
        cases path' with
        | field name' =>
            obtain rfl : name = name' := hkey
            exact .refl _
        | element index => exact .ofField (isDecimal_iff_eq_indexKey.2 hkey)
    | element index =>
        cases path' with
        | field name => exact .ofElement (isDecimal_iff_eq_indexKey.2 hkey.symm)
        | element index' =>
            obtain rfl := indexKey_injective hkey
            exact .refl _

instance (path path' : SlotPath) : Decidable (Same path path') :=
  decidable_of_iff _ same_iff.symm

end SlotPath

end InfoFlow
