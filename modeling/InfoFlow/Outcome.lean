import InfoFlow.Journal

/-!
# Outcomes

An operation either answers with a value or fails with an error. In both cases
it leaves a state and notes in the journal: what happened before a failure has
happened. Operations are put together with `andThen`, which goes on only after
an answer.
-/

namespace InfoFlow

/-- The answer or error of an operation, the state it leaves, and its notes. -/
structure Outcome (ε σ α : Type) where
  result : Except ε α
  state : σ
  journal : Journal

namespace Outcome

variable {ε δ σ τ α β : Type}

/-- An answer with these notes. -/
def noted (state : σ) (value : α) (journal : Journal) : Outcome ε σ α :=
  ⟨.ok value, state, journal⟩

/-- An answer without notes. -/
def ok (state : σ) (value : α) : Outcome ε σ α := noted state value []

/-- A failure without notes. -/
def fail (state : σ) (error : ε) : Outcome ε σ α := ⟨.error error, state, []⟩

/-- The answer or the error at hand, without notes. -/
def ofExcept (state : σ) (result : Except ε α) : Outcome ε σ α := ⟨result, state, []⟩

/-- The same outcome with the notes on what went before. -/
def since (outcome : Outcome ε σ α) (before : Journal) : Outcome ε σ α :=
  { outcome with journal := before ++ outcome.journal }

/-- Go on from an answer and the state it leaves; stop at a failure. -/
def andThen (outcome : Outcome ε σ α) (next : α → σ → Outcome ε σ β) : Outcome ε σ β :=
  match outcome.result with
  | .error error => ⟨.error error, outcome.state, outcome.journal⟩
  | .ok value => (next value outcome.state).since outcome.journal

def map (f : α → β) (outcome : Outcome ε σ α) : Outcome ε σ β :=
  { outcome with result := outcome.result.map f }

def mapError (f : ε → δ) (outcome : Outcome ε σ α) : Outcome δ σ α :=
  { outcome with result := outcome.result.mapError f }

def mapState (f : σ → τ) (outcome : Outcome ε σ α) : Outcome ε τ α :=
  { outcome with state := f outcome.state }

@[simp] theorem result_noted (s : σ) (a : α) (j : Journal) :
    (noted s a j : Outcome ε σ α).result = .ok a := rfl

@[simp] theorem state_noted (s : σ) (a : α) (j : Journal) :
    (noted s a j : Outcome ε σ α).state = s := rfl

@[simp] theorem journal_noted (s : σ) (a : α) (j : Journal) :
    (noted s a j : Outcome ε σ α).journal = j := rfl

@[simp] theorem result_fail (s : σ) (e : ε) : (fail s e : Outcome ε σ α).result = .error e := rfl

@[simp] theorem state_fail (s : σ) (e : ε) : (fail s e : Outcome ε σ α).state = s := rfl

@[simp] theorem journal_fail (s : σ) (e : ε) : (fail s e : Outcome ε σ α).journal = [] := rfl

@[simp] theorem andThen_ok (s : σ) (a : α) (f : α → σ → Outcome ε σ β) :
    (ok s a : Outcome ε σ α).andThen f = f a s := rfl

@[simp] theorem andThen_fail (s : σ) (e : ε) (f : α → σ → Outcome ε σ β) :
    (fail s e : Outcome ε σ α).andThen f = fail s e := rfl

@[simp] theorem state_map (f : α → β) (o : Outcome ε σ α) : (o.map f).state = o.state := rfl

@[simp] theorem state_mapError (f : ε → δ) (o : Outcome ε σ α) :
    (o.mapError f).state = o.state := rfl

@[simp] theorem state_mapState (f : σ → τ) (o : Outcome ε σ α) :
    (o.mapState f).state = f o.state := rfl

@[simp] theorem result_mapState (f : σ → τ) (o : Outcome ε σ α) :
    (o.mapState f).result = o.result := rfl

theorem map_map {γ : Type} (o : Outcome ε σ α) (f : α → β) (g : β → γ) :
    (o.map f).map g = o.map fun a => g (f a) := by
  unfold map
  cases o.result <;> rfl

/-- What is done to the answer at the end can be done to the last answer. -/
theorem map_andThen {γ : Type} (o : Outcome ε σ α) (f : α → σ → Outcome ε σ β) (g : β → γ) :
    (o.andThen f).map g = o.andThen fun a s => (f a s).map g := by
  unfold andThen
  cases o.result <;> rfl

/-! ## Taking an outcome apart -/

variable {o : Outcome ε σ α} {f : α → σ → Outcome ε σ β}

theorem result_andThen (o : Outcome ε σ α) (f : α → σ → Outcome ε σ β) :
    (o.andThen f).result = o.result.bind fun a => (f a o.state).result := by
  unfold andThen
  cases o.result <;> rfl

theorem result_andThen_eq_ok {b : β} :
    (o.andThen f).result = .ok b ↔ ∃ a, o.result = .ok a ∧ (f a o.state).result = .ok b := by
  unfold andThen
  cases o.result <;> simp [since]

theorem result_andThen_eq_error {e : ε} :
    (o.andThen f).result = .error e ↔
      o.result = .error e ∨ ∃ a, o.result = .ok a ∧ (f a o.state).result = .error e := by
  unfold andThen
  cases o.result <;> simp [since]

theorem result_map_eq_ok {g : α → β} {b : β} :
    (o.map g).result = .ok b ↔ ∃ a, o.result = .ok a ∧ g a = b := by
  unfold map
  cases o.result <;> simp [Except.map]

theorem result_map_eq_error {g : α → β} {e : ε} :
    (o.map g).result = .error e ↔ o.result = .error e := by
  unfold map
  cases o.result <;> simp [Except.map]

theorem mapError_eq_ok {result : Except ε α} {g : ε → δ} {a : α} :
    result.mapError g = .ok a ↔ result = .ok a := by
  cases result with
  | error e =>
      show (Except.error (g e) : Except δ α) = .ok a ↔ (Except.error e : Except ε α) = .ok a
      simp
  | ok value =>
      show (Except.ok value : Except δ α) = .ok a ↔ (Except.ok value : Except ε α) = .ok a
      simp

theorem result_mapError_eq_ok {g : ε → δ} {a : α} :
    (o.mapError g).result = .ok a ↔ o.result = .ok a :=
  mapError_eq_ok

theorem result_mapError_eq_error {g : ε → δ} {e : δ} :
    (o.mapError g).result = .error e ↔ ∃ cause, o.result = .error cause ∧ g cause = e := by
  unfold mapError
  cases o.result with
  | error cause =>
      constructor
      · rintro ⟨⟩
        exact ⟨cause, rfl, rfl⟩
      · rintro ⟨cause', ⟨⟩, rfl⟩
        rfl
  | ok value =>
      constructor
      · rintro ⟨⟩
      · rintro ⟨cause', ⟨⟩, -⟩

end Outcome

end InfoFlow
