import InfoFlow.Proofs.Json.Reader
import InfoFlow.Proofs.Json.Structure
import InfoFlow.Trace.Json

/-!
# Traces are read as they are written

The text of a trace in one line is read back as that trace, over each kind of level: over
the two chains, and over sets of categories as long as there are not more of them than a
number of 32 bits has. A structure is read field by field, so that the proof has one case
for each operand and each operation, and in each of them one step for each field.

What is read of an operation has to be kept aside first, while its kind is looked for;
nothing that is written nests deeply enough or holds a number large enough to be refused.
-/

namespace InfoFlow

namespace Json

variable {fields : List (String × Json)}

/-! ## §1  Cases -/

/-- The kind is told apart from the fields beside it. -/
theorem tagged?_variant (kind : String) (hkeys : "kind" ∉ fields.map Prod.fst) :
    (variant kind fields).tagged? = some (.text kind, record fields) := by
  have hothers : ∀ member ∈ members fields, member.1 ≠ some "kind" := by
    intro member hmember hkind
    obtain ⟨field, hfield, rfl⟩ := List.mem_map.1 hmember
    have hsame : field.1 = "kind" := by simpa using hkind
    exact hkeys (hsame ▸ List.mem_map_of_mem hfield)
  have hkind : (members fields).filter (·.1 = some "kind") = [] := by
    rw [List.filter_eq_nil_iff]
    exact fun member hmember => by simpa using hothers member hmember
  have hrest : (members fields).filter (·.1 ≠ some "kind") = members fields := by
    rw [List.filter_eq_self]
    exact fun member hmember => by simpa using hothers member hmember
  rw [variant, record_eq_object, members, List.map_cons, ← members, tagged?,
    List.filter_cons_of_pos (by simp), List.filter_cons_of_neg (by simp), hkind, hrest]
  rfl

@[simp] theorem word?_word (n : UInt64) : (word n).word? = some n := word?_natural n

/-! ## §2  What may be kept aside -/

theorem areKeepable_eq_all (depth : Nat) (elements : List Json) :
    areKeepable depth elements = elements.all (isKeepable depth) := by
  induction elements with
  | nil => rfl
  | cons element elements ih => rw [areKeepable, ih, List.all_cons]

theorem isKeepable_record {depth : Nat}
    (h : ∀ field ∈ fields, isKeepable depth field.2 = true) :
    isKeepable (depth + 1) (record fields) = true := by
  suffices hmembers : areMembersKeepable depth (members fields) = true by
    simpa [record_eq_object, isKeepable] using hmembers
  induction fields with
  | nil => rfl
  | cons field fields ih =>
      rw [members, List.map_cons, ← members, areMembersKeepable, isMemberKeepable, h field List.mem_cons_self,
        ih fun other hother => h other (List.mem_cons_of_mem field hother)]
      rfl

theorem isKeepable_variant {depth : Nat} (kind : String)
    (h : ∀ field ∈ fields, isKeepable depth field.2 = true) :
    isKeepable (depth + 1) (variant kind fields) = true := by
  refine isKeepable_record fun field hfield => ?_
  rcases List.mem_cons.1 hfield with rfl | hfield
  · rfl
  · exact h field hfield

@[simp] theorem isKeepable_text (depth : Nat) (content : String) :
    isKeepable depth (text content) = true := rfl

theorem isKeepable_natural (depth : Nat) {n : Nat} (h : n < UInt64.size) :
    isKeepable depth (natural n) = true := by
  simp [natural, isKeepable, Number.isFinite, h]

@[simp] theorem isKeepable_word (depth : Nat) (n : UInt64) : isKeepable depth (word n) = true :=
  isKeepable_natural depth n.toNat_lt

theorem isKeepable_array {depth : Nat} {elements : List Json}
    (h : ∀ element ∈ elements, isKeepable depth element = true) :
    isKeepable (depth + 1) (.array elements) = true := by
  simpa [isKeepable, areKeepable_eq_all] using h

end Json

@[simp] theorem Handle.ofJson?_toJson (id : Handle) : Handle.ofJson? id.toJson = some id := by
  simp [Handle.ofJson?, Handle.toJson]

@[simp] theorem Tag.ofJson?_toJson (tag : Tag) : Tag.ofJson? tag.toJson = some tag := rfl

/-! ## §3  Levels -/

/-- Levels are read as they are written, also where they are kept aside first. -/
structure LevelsReadBack (L : Type) [JsonLevel L] : Prop where
  ofJson?_toJson : ∀ (keptAside : Bool) (level : L),
    JsonLevel.ofJson? keptAside (JsonLevel.toJson level) = some level
  isKeepable_toJson : ∀ (depth : Nat) (level : L),
    (JsonLevel.toJson level).isKeepable depth = true

theorem levelsReadBack_twoLevel : LevelsReadBack TwoLevel where
  ofJson?_toJson keptAside level := by cases level <;> rfl
  isKeepable_toJson depth level := rfl

theorem levelsReadBack_threeLevel : LevelsReadBack ThreeLevel where
  ofJson?_toJson keptAside level := by cases level <;> rfl
  isKeepable_toJson depth level := rfl

theorem levelsReadBack_categorySet {n : Nat} (hn : n ≤ 32) : LevelsReadBack (CategorySet n) := by
  have hmask : ∀ set : CategorySet n, set.bits < Nat.pow 2 n := fun set => set.mask.isLt
  have hbits : ∀ set : CategorySet n, set.bits < UInt32.size := fun set =>
    Nat.lt_of_lt_of_le (hmask set) (Nat.pow_le_pow_right (by decide) hn)
  refine ⟨fun keptAside set => ?_, fun depth set => ?_⟩
  · show CategorySet.ofNumber? set.bits = some set
    unfold CategorySet.ofNumber? CategorySet.ofBits?
    rw [if_pos (hbits set), if_pos (hmask set)]
    simp [Except.toOption, CategorySet.ofBits, CategorySet.bits]
  · exact Json.isKeepable_natural depth (Nat.lt_trans (hbits set) (by decide))

/-! ## §4  Operands and operations -/

section Traces

variable {L : Type} [JsonLevel L]

theorem Operand.ofJson?_variant (kind : String) {fields : List (String × Json)}
    (hkeys : "kind" ∉ fields.map Prod.fst) :
    Operand.ofJson? (.variant kind fields) = (Operand.ofFields? kind (.record fields) :
      Option (Operand L)) := by
  unfold Operand.ofJson?
  rw [Json.tagged?_variant kind hkeys]
  rfl

theorem TraceOp.ofJson?_variant (kind : String) {fields : List (String × Json)}
    (hkeys : "kind" ∉ fields.map Prod.fst)
    (hkeep : (Json.variant kind fields).isKeepable TraceOp.nesting = true) :
    TraceOp.ofJson? (.variant kind fields) = (TraceOp.ofFields? kind (.record fields) :
      Option (TraceOp L)) := by
  unfold TraceOp.ofJson?
  rw [if_pos hkeep, Json.tagged?_variant kind hkeys]
  rfl

variable (hlevels : LevelsReadBack L)
include hlevels

theorem LevelsReadBack.operand (operand : Operand L) :
    Operand.ofJson? operand.toJson = some operand := by
  cases operand with
  | «local» name =>
      rw [Operand.toJson, Operand.ofJson?_variant _ (by simp)]
      simp [Operand.ofFields?, Json.fields?_record]
  | field object name =>
      rw [Operand.toJson, Operand.ofJson?_variant _ (by simp)]
      simp [Operand.ofFields?, Json.fields?_record]
  | element array index =>
      rw [Operand.toJson, Operand.ofJson?_variant _ (by simp)]
      simp [Operand.ofFields?, Json.fields?_record]
  | constant =>
      rw [Operand.toJson, Operand.ofJson?_variant _ (by simp)]
      simp [Operand.ofFields?, Json.fields?_record]
  | literal level =>
      rw [Operand.toJson, Operand.ofJson?_variant _ (by simp)]
      simp [Operand.ofFields?, Json.fields?_record, hlevels.ofJson?_toJson]

theorem LevelsReadBack.operands (operands : List (Operand L)) :
    Operand.listOfField? (some (Operand.listToJson operands)) = some operands :=
  Json.list?_array hlevels.operand operands

theorem LevelsReadBack.isKeepable_operand (depth : Nat) (operand : Operand L) :
    operand.toJson.isKeepable (depth + 1) = true := by
  cases operand <;>
    refine Json.isKeepable_variant _ ?_ <;>
      simp [Handle.toJson, hlevels.isKeepable_toJson]

theorem LevelsReadBack.isKeepable_operands (depth : Nat) (operands : List (Operand L)) :
    (Operand.listToJson operands).isKeepable (depth + 2) = true := by
  refine Json.isKeepable_array fun json hjson => ?_
  obtain ⟨operand, hoperand, rfl⟩ := List.mem_map.1 hjson
  exact hlevels.isKeepable_operand depth operand

theorem LevelsReadBack.isKeepable_op (op : TraceOp L) :
    op.toJson.isKeepable TraceOp.nesting = true := by
  rcases op with action | ⟨callee, arguments⟩ | _ | ⟨callee, name⟩
  · cases action <;>
      refine Json.isKeepable_variant _ ?_ <;>
        simp [Handle.toJson, Tag.toJson, hlevels.isKeepable_toJson, hlevels.isKeepable_operands 121]
  · exact Json.isKeepable_variant _ (by simp [hlevels.isKeepable_operands 121])
  · exact Json.isKeepable_variant _ (by simp)
  · exact Json.isKeepable_variant _ (by simp)

theorem LevelsReadBack.op (op : TraceOp L) : TraceOp.ofJson? op.toJson = some op := by
  have hkeep := hlevels.isKeepable_op op
  rcases op with action | ⟨callee, arguments⟩ | _ | ⟨callee, name⟩
  · cases action <;>
      rw [TraceOp.toJson] at hkeep ⊢ <;>
        rw [TraceOp.ofJson?_variant _ (by simp) hkeep] <;>
          simp [TraceOp.ofFields?, Json.fields?_record, hlevels.operands, hlevels.ofJson?_toJson]
  · rw [TraceOp.toJson] at hkeep ⊢
    rw [TraceOp.ofJson?_variant _ (by simp) hkeep]
    simp [TraceOp.ofFields?, Json.fields?_record, hlevels.operands]
  · rw [TraceOp.toJson] at hkeep ⊢
    rw [TraceOp.ofJson?_variant _ (by simp) hkeep]
    simp [TraceOp.ofFields?, Json.fields?_record]
  · rw [TraceOp.toJson] at hkeep ⊢
    rw [TraceOp.ofJson?_variant _ (by simp) hkeep]
    simp [TraceOp.ofFields?, Json.fields?_record]

/-! ## §5  Traces -/

theorem LevelsReadBack.step (step : Step L) : Step.ofJson? step.toJson = some step := by
  unfold Step.ofJson? Step.toJson
  simp [Json.fields?_record, hlevels.op]

theorem LevelsReadBack.trace (trace : Trace L) : Trace.ofJson? trace.toJson = some trace := by
  unfold Trace.ofJson? Trace.toJson
  simp [Json.fields?_record, Json.defaulted, Json.list?_array hlevels.step]

theorem LevelsReadBack.read?_text (trace : Trace L) : Trace.read? trace.text = some trace := by
  unfold Trace.read? Trace.text
  rw [Json.read?_compact]
  exact hlevels.trace trace

end Traces

/-- **A trace is read back from its text.** Whatever texts its names, tags and description
are, whatever numbers its handles, indices, lengths and positions, and whatever operations
it records: over two levels, over three, and over sets of at most 32 categories. -/
theorem read?_text_trace :
    (∀ trace : Trace TwoLevel, Trace.read? trace.text = some trace) ∧
      (∀ trace : Trace ThreeLevel, Trace.read? trace.text = some trace) ∧
      ∀ n ≤ 32, ∀ trace : Trace (CategorySet n), Trace.read? trace.text = some trace :=
  ⟨levelsReadBack_twoLevel.read?_text, levelsReadBack_threeLevel.read?_text,
    fun _ hn => (levelsReadBack_categorySet hn).read?_text⟩

section Witness

/-- Names with a quotation mark, a backslash, control characters and one outside the basic
plane, the greatest index, and the set of all of 32 categories. -/
def oddNames : Trace (CategorySet 32) where
  description := "\"\\\n\u0000"
  steps :=
    [⟨"\u001f", .action (.write "🔒" [.element ⟨0⟩ 0xFFFFFFFFFFFFFFFF, .literal .full])⟩,
      ⟨"", .close⟩]

theorem read?_text_oddNames : 32 ≤ 32 ∧ Trace.read? oddNames.text = some oddNames :=
  ⟨Nat.le_refl 32, read?_text_trace.2.2 32 (Nat.le_refl 32) oddNames⟩

end Witness

end InfoFlow
