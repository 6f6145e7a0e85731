import InfoFlow.Proofs.Replay.Image
import InfoFlow.Trace.Json

/-!
# Traces over two levels among traces over three

Whatever reads as a trace over `LOW` and `HIGH` also reads as one over the longer
chain: as the same trace, since the names of levels are all that differs. Readers
are compared by `Accepts`, which says of two results that the second is there
whenever the first is, and is its image; it goes through every way in which readers
are put together. With what an embedding of levels does to a replay, the two traces
come to the same end, word for word (`read_inThree`).
-/

namespace InfoFlow

/-! ## §1  Readers that accept more -/

section Readers

variable {ι α β γ δ : Type}

/-- If `x` is there, `y` is its image. -/
def Accepts (g : α → β) (x : Option α) (y : Option β) : Prop :=
  ∀ a, x = some a → y = some (g a)

theorem accepts_same (x : Option α) : Accepts id x x := fun _ h => h

theorem accepts_none (g : α → β) (y : Option β) : Accepts g none y := fun _ h => nomatch h

theorem accepts_some (g : α → β) (a : α) : Accepts g (some a) (some (g a)) := by
  rintro _ ⟨⟩
  rfl

theorem Accepts.bind {g : α → β} {g' : γ → δ} {x : Option α} {y : Option β} {k : α → Option γ}
    {k' : β → Option δ} (h : Accepts g x y) (hk : ∀ a, Accepts g' (k a) (k' (g a))) :
    Accepts g' (x.bind k) (y.bind k') := by
  intro c hc
  obtain ⟨a, ha, hka⟩ := Option.bind_eq_some_iff.1 hc
  exact Option.bind_eq_some_iff.2 ⟨g a, h a ha, hk a c hka⟩

variable {g : α → β}

theorem accepts_required {decode : Json → Option α} {decode' : Json → Option β}
    (h : ∀ json, Accepts g (decode json) (decode' json)) (field : Option Json) :
    Accepts g (Json.required decode field) (Json.required decode' field) :=
  (accepts_same field).bind h

theorem accepts_defaulted {decode : Json → Option α} {decode' : Json → Option β}
    (h : ∀ json, Accepts g (decode json) (decode' json)) (default : α) (field : Option Json) :
    Accepts g (Json.defaulted default decode field) (Json.defaulted (g default) decode' field) := by
  cases field with
  | none => exact accepts_some g default
  | some json => exact h json

theorem accepts_mapM {decode : Json → Option α} {decode' : Json → Option β}
    (h : ∀ json, Accepts g (decode json) (decode' json)) (elements : List Json) :
    Accepts (List.map g) (elements.mapM decode) (elements.mapM decode') := by
  induction elements with
  | nil => exact accepts_some (List.map g) []
  | cons element elements ih =>
      rw [List.mapM_cons, List.mapM_cons]
      exact (h element).bind fun a => ih.bind fun rest => accepts_some (List.map g) (a :: rest)

theorem accepts_list {decode : Json → Option α} {decode' : Json → Option β}
    (h : ∀ json, Accepts g (decode json) (decode' json)) (json : Json) :
    Accepts (List.map g) (Json.list? decode json) (Json.list? decode' json) := by
  cases json with
  | array elements => exact accepts_mapM h elements
  | _ => exact accepts_none _ _

/-! A structure is read field by field; what has other fields is read by neither. -/

variable (keys : List String) (fields : Json)

theorem accepts_fields₀ {x : Option α} {y : Option β} (h : Accepts g x y) :
    Accepts g
      (do let [] ← fields.fields? keys | none
          x)
      (do let [] ← fields.fields? keys | none
          y) := by
  refine (accepts_same (fields.fields? keys)).bind fun values => ?_
  rcases values with _ | ⟨a, values⟩
  · exact h
  · exact accepts_none _ _

theorem accepts_fields₁ {k : Option Json → Option α} {k' : Option Json → Option β}
    (h : ∀ a, Accepts g (k a) (k' a)) :
    Accepts g
      (do let [a] ← fields.fields? keys | none
          k a)
      (do let [a] ← fields.fields? keys | none
          k' a) := by
  refine (accepts_same (fields.fields? keys)).bind fun values => ?_
  rcases values with _ | ⟨a, _ | ⟨b, values⟩⟩
  · exact accepts_none _ _
  · exact h a
  · exact accepts_none _ _

theorem accepts_fields₂ {k : Option Json → Option Json → Option α}
    {k' : Option Json → Option Json → Option β} (h : ∀ a b, Accepts g (k a b) (k' a b)) :
    Accepts g
      (do let [a, b] ← fields.fields? keys | none
          k a b)
      (do let [a, b] ← fields.fields? keys | none
          k' a b) := by
  refine (accepts_same (fields.fields? keys)).bind fun values => ?_
  rcases values with _ | ⟨a, _ | ⟨b, _ | ⟨c, values⟩⟩⟩
  · exact accepts_none _ _
  · exact accepts_none _ _
  · exact h a b
  · exact accepts_none _ _

theorem accepts_fields₃ {k : Option Json → Option Json → Option Json → Option α}
    {k' : Option Json → Option Json → Option Json → Option β}
    (h : ∀ a b c, Accepts g (k a b c) (k' a b c)) :
    Accepts g
      (do let [a, b, c] ← fields.fields? keys | none
          k a b c)
      (do let [a, b, c] ← fields.fields? keys | none
          k' a b c) := by
  refine (accepts_same (fields.fields? keys)).bind fun values => ?_
  rcases values with _ | ⟨a, _ | ⟨b, _ | ⟨c, _ | ⟨d, values⟩⟩⟩⟩
  · exact accepts_none _ _
  · exact accepts_none _ _
  · exact accepts_none _ _
  · exact h a b c
  · exact accepts_none _ _

end Readers

/-! ## §2  Traces -/

section Traces

variable {L M : Type} [JsonLevel L] [JsonLevel M] {f : L → M}

/-- Levels that can be read on the one side are read as their images on the other. -/
def ReadsImages (f : L → M) : Prop :=
  ∀ keptAside json,
    Accepts f (JsonLevel.ofJson? keptAside json) (JsonLevel.ofJson? keptAside json)

variable (hf : ReadsImages f)
include hf

theorem ReadsImages.operandFields (kind : String) (fields : Json) :
    Accepts (Operand.map f) (Operand.ofFields? kind fields) (Operand.ofFields? kind fields) := by
  unfold Operand.ofFields?
  split
  · refine accepts_fields₁ _ _ fun name => ?_
    exact (accepts_same _).bind fun name => accepts_some _ _
  · refine accepts_fields₂ _ _ fun object name => ?_
    exact (accepts_same _).bind fun object => (accepts_same _).bind fun name => accepts_some _ _
  · refine accepts_fields₂ _ _ fun array index => ?_
    exact (accepts_same _).bind fun array => (accepts_same _).bind fun index => accepts_some _ _
  · exact accepts_fields₀ _ _ (accepts_some _ _)
  · refine accepts_fields₁ _ _ fun level => ?_
    exact (accepts_required (hf true) level).bind fun level => accepts_some _ _
  · exact accepts_none _ _

theorem ReadsImages.operand (json : Json) :
    Accepts (Operand.map f) (Operand.ofJson? json) (Operand.ofJson? json) := by
  refine (accepts_same json.tagged?).bind fun tagged => ?_
  exact (accepts_same _).bind fun kind => hf.operandFields kind tagged.2

theorem ReadsImages.operands (field : Option Json) :
    Accepts (List.map (Operand.map f)) (Operand.listOfField? field)
      (Operand.listOfField? field) :=
  accepts_defaulted (accepts_list hf.operand) [] field

theorem ReadsImages.opFields (kind : String) (fields : Json) :
    Accepts (TraceOp.map f) (TraceOp.ofFields? kind fields) (TraceOp.ofFields? kind fields) := by
  unfold TraceOp.ofFields?
  split
  · refine accepts_fields₁ _ _ fun name => ?_
    exact (accepts_same _).bind fun name => accepts_some _ _
  · refine accepts_fields₂ _ _ fun name operands => ?_
    refine (accepts_same _).bind fun name => ?_
    exact (hf.operands operands).bind fun operands => accepts_some _ _
  · refine accepts_fields₃ _ _ fun object field operands => ?_
    refine (accepts_same _).bind fun object => (accepts_same _).bind fun field => ?_
    exact (hf.operands operands).bind fun operands => accepts_some _ _
  · refine accepts_fields₃ _ _ fun array index operands => ?_
    refine (accepts_same _).bind fun array => (accepts_same _).bind fun index => ?_
    exact (hf.operands operands).bind fun operands => accepts_some _ _
  · refine accepts_fields₂ _ _ fun tag condition => ?_
    refine (accepts_same _).bind fun tag => ?_
    exact (hf.operands condition).bind fun condition => accepts_some _ _
  · refine accepts_fields₁ _ _ fun tag => ?_
    exact (accepts_same _).bind fun tag => accepts_some _ _
  · refine accepts_fields₁ _ _ fun name => ?_
    exact (accepts_same _).bind fun name => accepts_some _ _
  · refine accepts_fields₂ _ _ fun name sink => ?_
    refine (accepts_same _).bind fun name => ?_
    exact (accepts_required (hf true) sink).bind fun sink => accepts_some _ _
  · refine accepts_fields₁ _ _ fun object => ?_
    exact (accepts_same _).bind fun object => accepts_some _ _
  · refine accepts_fields₂ _ _ fun object field => ?_
    refine (accepts_same _).bind fun object => ?_
    exact (accepts_same _).bind fun field => accepts_some _ _
  · refine accepts_fields₂ _ _ fun array length => ?_
    refine (accepts_same _).bind fun array => ?_
    exact (accepts_same _).bind fun length => accepts_some _ _
  · refine accepts_fields₂ _ _ fun name level => ?_
    refine (accepts_same _).bind fun name => ?_
    exact (accepts_required (hf true) level).bind fun level => accepts_some _ _
  · refine accepts_fields₃ _ _ fun object field level => ?_
    refine (accepts_same _).bind fun object => (accepts_same _).bind fun field => ?_
    exact (accepts_required (hf true) level).bind fun level => accepts_some _ _
  · refine accepts_fields₂ _ _ fun callee arguments => ?_
    refine (accepts_same _).bind fun callee => ?_
    exact (hf.operands arguments).bind fun arguments => accepts_some _ _
  · refine accepts_fields₂ _ _ fun position name => ?_
    refine (accepts_same _).bind fun position => ?_
    exact (accepts_same _).bind fun name => accepts_some _ _
  · refine accepts_fields₁ _ _ fun name => ?_
    exact (accepts_same _).bind fun name => accepts_some _ _
  · exact accepts_fields₀ _ _ (accepts_some _ _)
  · exact accepts_fields₀ _ _ (accepts_some _ _)
  · refine accepts_fields₂ _ _ fun callee name => ?_
    refine (accepts_same _).bind fun callee => ?_
    exact (accepts_same _).bind fun name => accepts_some _ _
  · exact accepts_none _ _

theorem ReadsImages.op (json : Json) :
    Accepts (TraceOp.map f) (TraceOp.ofJson? json) (TraceOp.ofJson? json) := by
  unfold TraceOp.ofJson?
  split
  · refine (accepts_same json.tagged?).bind fun tagged => ?_
    exact (accepts_same _).bind fun kind => hf.opFields kind tagged.2
  · exact accepts_none _ _

theorem ReadsImages.step (json : Json) :
    Accepts (Step.map f) (Step.ofJson? json) (Step.ofJson? json) := by
  refine accepts_fields₂ _ _ fun frame op => ?_
  refine (accepts_same _).bind fun frame => ?_
  exact (accepts_required hf.op op).bind fun op => accepts_some _ _

/-- **A text that writes a trace also writes its image.** -/
theorem ReadsImages.trace (text : String) :
    Accepts (Trace.map f) (Trace.read? text) (Trace.read? text) := by
  refine (accepts_same (Json.read? text)).bind fun json => ?_
  refine accepts_fields₂ _ _ fun description steps => ?_
  refine (accepts_same _).bind fun description => ?_
  exact (accepts_required (accepts_list hf.step) steps).bind fun steps => accepts_some _ _

end Traces

/-! ## §3  Two levels and three -/

theorem readsImages_inThree : ReadsImages TwoLevel.inThree := by
  intro keptAside json
  refine (accepts_same (json.caseName? keptAside)).bind fun name => ?_
  intro level hlevel
  have hlevel : TwoLevel.ofName? name = some level := hlevel
  show ThreeLevel.ofName? name = some level.inThree
  unfold TwoLevel.ofName? at hlevel
  split at hlevel
  · cases hlevel
    rfl
  · cases hlevel
    rfl
  · cases hlevel

/-- **Two levels are three of which one is not used.** Whatever reads as a trace over
two levels reads as the same trace over three. However it is replayed, the reports or
the faults are equal, the same frames are open, and what the one replay leaves is what
the other leaves, level by level. -/
theorem read_inThree {text : String} {trace : Trace TwoLevel} (h : Trace.read? text = some trace) :
    Trace.read? text = some (trace.map TwoLevel.inThree) ∧
      ∀ (policy : Policy) (keepGoing : Bool),
        ((Replay.new policy keepGoing).run (trace.map TwoLevel.inThree)).result =
            ((Replay.new policy keepGoing).run trace).result ∧
          ((Replay.new policy keepGoing).run (trace.map TwoLevel.inThree)).state.openFrames =
            ((Replay.new policy keepGoing).run trace).state.openFrames ∧
          ((Replay.new policy keepGoing).run (trace.map TwoLevel.inThree)).state =
            ((Replay.new policy keepGoing).run trace).state.map TwoLevel.inThree := by
  refine ⟨readsImages_inThree.trace text trace h, fun policy keepGoing => ?_⟩
  have hrun := levelEmbedding_inThree.ending_run (Replay.new policy keepGoing) trace
  rw [Replay.map_new] at hrun
  have hstate : ((Replay.new policy keepGoing).run (trace.map TwoLevel.inThree)).state =
      ((Replay.new policy keepGoing).run trace).state.map TwoLevel.inThree :=
    congrArg Prod.snd hrun
  refine ⟨congrArg Prod.fst hrun, ?_, hstate⟩
  rw [hstate, Replay.openFrames_map]

/-- A secret is kept from a public sink. -/
def leak : Trace TwoLevel where
  description := ""
  steps :=
    [⟨"main", .action (.declare "x")⟩, ⟨"main", .action (.label "x" .high)⟩,
      ⟨"main", .action (.checkSink "x" .low)⟩]

/-- The steps are written as arrays of their fields. -/
def leakText : String :=
  "\x7b\"steps\": [[\"main\", [\"declare_local\", \"x\"]], " ++
    "[\"main\", [\"assert_local_level\", \"x\", \"HIGH\"]], " ++
    "[\"main\", [\"check_flows_to\", \"x\", \"LOW\"]]]\x7d"

theorem read_inThree_leak :
    Trace.read? leakText = some (leak.map TwoLevel.inThree) ∧
      ((Replay.new {} true).run (leak.map TwoLevel.inThree)).result =
        .ok ⟨3, [⟨2, "main", "Illegal flow to local 'x': level HIGH exceeds sink bound LOW"⟩]⟩ := by
  have hread : Trace.read? leakText = some leak := by decide +kernel
  have hrun : ((Replay.new {} true).run leak).result =
      .ok ⟨3, [⟨2, "main", "Illegal flow to local 'x': level HIGH exceeds sink bound LOW"⟩]⟩ := by
    rfl
  obtain ⟨hthree, hruns⟩ := read_inThree hread
  exact ⟨hthree, (hruns {} true).1.trans hrun⟩

end InfoFlow
