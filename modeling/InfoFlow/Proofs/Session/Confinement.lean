import InfoFlow.Level.CategorySet
import InfoFlow.Proofs.Session.Run

/-!
# What a branch can do to what was there before

Inside a branch entered with program counter `p`, every level that a write
commits is at `p` or above. A local that was declared at a level to which `p`
does not flow is moreover never raised, so that it ends where it was or between
`p` and where it was: nothing that happens in the branch lets an observer
below `p` see a change (`Branch.confined`).
-/

namespace InfoFlow

open Level (join)
open LawfulJoin
open ProgramCounter (Extends)

variable {L : Type} [Level L] [LawfulJoin L]

/-! ## §1  A local and a slot, event by event -/

/-- What is left of a local with labels `slot` when the program counter has been
at `p` or above: it is unchanged, or between `p` and the level it had. -/
def Held (p : L) (slot : LocalLabel L) (now : Option (LocalLabel L)) : Prop :=
  ∃ slot', now = some slot' ∧ slot'.declaredUnder = slot.declaredUnder ∧
    slot'.level ≤ slot.level ∧ (slot' = slot ∨ p ≤ slot'.level)

/-- What is left of a heap slot at `level` when the program counter has been at
`p` or above: it is unchanged, or at `p` or above. -/
def Kept (p level : L) (now : Option L) : Prop :=
  ∃ level', now = some level' ∧ (level' = level ∨ p ≤ level')

theorem Held.refl (p : L) (slot : LocalLabel L) : Held p slot (some slot) :=
  ⟨slot, rfl, rfl, le_refl _, Or.inl rfl⟩

/-- One operation under a program counter at `p` or above holds a local to whose
declaration PC `p` does not flow, unless it relabels it. -/
theorem Operation.Succeeds.held {s s' : Session L} {heap heap' : Heap L} {op : Operation L}
    {reply : Reply L} (h : Operation.Succeeds s heap op reply s' heap') {p : L}
    (hp : p ≤ s.pc.level) {x : String} {slot : LocalLabel L}
    (hunder : ¬ p ≤ slot.declaredUnder) (hop : ¬ op.Relabels x)
    (hheld : Held p slot (s.locals.find? x)) : Held p slot (s'.locals.find? x) := by
  obtain ⟨now, hnow, hdecl, hle, hsame⟩ := hheld
  obtain ⟨next, hnext, hdecl', hcases⟩ := h.find?_cases hnow
  refine ⟨next, hnext, hdecl'.trans hdecl, ?_⟩
  rcases hcases with rfl | hrelabels | ⟨operand, -, hlevel, hadmitted⟩
  · exact ⟨hle, hsame⟩
  · exact absurd hrelabels hop
  · -- the declaration PC is not above `p`, so the local counts as existing before
    have hpre : s.PreExisting now := by
      intro hflows
      rw [hdecl] at hflows
      exact hunder (le_trans hp hflows)
    rw [hlevel]
    exact ⟨le_trans (hadmitted hpre) hle, Or.inr (le_join_of_le_right operand hp)⟩

namespace Event

/-- An event that does not relabel local `x`. An operation that fails relabels nothing, and
the changes that other sessions make are to the heap. -/
def Spares (x : String) (state : Session L × Heap L) : Event L → Prop
  | own op => (op.perform state.1 state.2).result.isOk → ¬ op.Relabels x
  | others _ => True

/-- A run in which no event relabels local `x`. -/
def Spared (x : String) (state : Session L × Heap L) : List (Event L) → Prop
  | [] => True
  | event :: events => event.Spares x state ∧ Spared x (event.apply state) events

/-- An operation of the session that labels nothing by hand. -/
def OwnChecked : Event L → Prop
  | own op => op.Checked
  | others _ => False

omit [LawfulJoin L] in
theorem OwnChecked.spares {event : Event L} (h : event.OwnChecked) (x : String)
    (state : Session L × Heap L) : event.Spares x state := by
  cases event with
  | own op => exact fun _ => Operation.Checked.not_relabels h x
  | others heap => trivial

omit [LawfulJoin L] in
theorem spared_of_ownChecked {events : List (Event L)} (h : ∀ event ∈ events, event.OwnChecked)
    (x : String) (state : Session L × Heap L) : Spared x state events := by
  induction events generalizing state with
  | nil => trivial
  | cons event events ih =>
      obtain ⟨hevent, hevents⟩ := List.forall_mem_cons.1 h
      exact ⟨hevent.spares x state, ih hevents (event.apply state)⟩

theorem held_apply {state : Session L × Heap L} {event : Event L} {p : L}
    (hp : p ≤ state.1.pc.level) {x : String} {slot : LocalLabel L}
    (hunder : ¬ p ≤ slot.declaredUnder) (hevent : event.Spares x state)
    (hheld : Held p slot (state.1.locals.find? x)) :
    Held p slot ((event.apply state).1.locals.find? x) := by
  cases event with
  | others heap => exact hheld
  | own op =>
      show Held p slot ((op.perform state.1 state.2).state.1.locals.find? x)
      rcases Operation.state_cases op state.1 state.2 with hsame | ⟨reply, hrule⟩
      · rw [hsame]
        exact hheld
      · have hok : (op.perform state.1 state.2).result.isOk := by
          rw [(Operation.perform_of_succeeds hrule).1]
          rfl
        exact hrule.held hp hunder (hevent hok) hheld

theorem kept_apply {state : Session L × Heap L} {event : Event L} {p : L}
    (hp : p ≤ state.1.pc.level) (hevent : event.OwnChecked) {id : Handle} {key : String}
    {level : L} (hkept : Kept p level (state.2.level? id key)) :
    Kept p level ((event.apply state).2.level? id key) := by
  obtain ⟨now, hnow, hsame⟩ := hkept
  cases event with
  | others heap => exact hevent.elim
  | own op =>
      show Kept p level ((op.perform state.1 state.2).state.2.level? id key)
      rcases Operation.state_cases op state.1 state.2 with hstate | ⟨reply, hrule⟩
      · rw [hstate]
        exact ⟨now, hnow, hsame⟩
      · obtain ⟨next, hnext, rfl | hle⟩ := hrule.level?_cases hevent hnow
        · exact ⟨next, hnext, hsame⟩
        · exact ⟨next, hnext, Or.inr (le_trans hp hle)⟩

/-! ## §2  Whole runs -/

/-- A run that keeps the scopes of `low` open holds every local to whose
declaration PC the level of `low` does not flow, unless it relabels it. -/
theorem held_after {low : ProgramCounter L} {state : Session L × Heap L}
    {events : List (Event L)} (hlow : Extends low state.1.pc)
    (hopen : StaysOpen low.depth state events) {x : String} {slot : LocalLabel L}
    (hunder : ¬ low.level ≤ slot.declaredUnder) (hspared : Spared x state events)
    (hheld : Held low.level slot (state.1.locals.find? x)) :
    Held low.level slot ((after state events).1.locals.find? x) := by
  refine (invariant_after (fun state rest => Spared x state rest ∧
    Held low.level slot (state.1.locals.find? x)) hlow hopen ?_ ⟨hspared, hheld⟩).2
  rintro state event rest hpc ⟨⟨hevent, hrest⟩, h⟩
  exact ⟨hrest, held_apply hpc hunder hevent h⟩

/-- A run of the session alone that keeps the scopes of `low` open and labels
nothing by hand keeps every heap slot. -/
theorem kept_after {low : ProgramCounter L} {state : Session L × Heap L}
    {events : List (Event L)} (hlow : Extends low state.1.pc)
    (hopen : StaysOpen low.depth state events) (hevents : ∀ event ∈ events, event.OwnChecked)
    {id : Handle} {key : String} {level : L}
    (hkept : Kept low.level level (state.2.level? id key)) :
    Kept low.level level ((after state events).2.level? id key) := by
  refine (invariant_after (fun state rest => (∀ event ∈ rest, event.OwnChecked) ∧
    Kept low.level level (state.2.level? id key)) hlow hopen ?_ ⟨hevents, hkept⟩).2
  rintro state event rest hpc ⟨hchecked, h⟩
  obtain ⟨hevent, hrest⟩ := List.forall_mem_cons.1 hchecked
  exact ⟨hrest, kept_apply hpc hevent h⟩

end Event

/-! ## §3  Branches -/

/-- A branch as a session goes through it: what it finds, how the scope is
opened, and what happens inside. -/
structure Branch (L : Type) where
  before : Session L × Heap L
  entering : Operation L
  events : List (Event L)

namespace Branch

def entered (b : Branch L) : Session L × Heap L :=
  (b.entering.perform b.before.1 b.before.2).state

def inside (b : Branch L) : Session L × Heap L := Event.after b.entered b.events

def left (b : Branch L) (tag : Tag) : Session L × Heap L :=
  ((Operation.exit tag).perform b.inside.1 b.inside.2).state

/-- The branch is entered with program counter `p`, and nothing inside closes
its scope. -/
structure Open (b : Branch L) (p : L) : Prop where
  enters : b.entering.Enters
  answer : (b.entering.perform b.before.1 b.before.2).result = .ok (.level p)
  staysOpen : Event.StaysOpen b.entered.1.pc.depth b.entered b.events

/-- The branch is entered with program counter `p`, and an exit with this tag
closes its scope in the end. -/
structure Closed (b : Branch L) (p : L) (tag : Tag) : Prop extends b.Open p where
  innermost : b.inside.1.pc.depth = b.entered.1.pc.depth
  exits : ∃ q, ((Operation.exit tag).perform b.inside.1 b.inside.2).result = .ok (.level q)

omit [LawfulJoin L] in
theorem Open.entered_eq {b : Branch L} {p : L} (h : b.Open p) :
    b.entered.1.pc.level = p ∧ b.entered.1.locals = b.before.1.locals ∧
      b.entered.2 = b.before.2 := by
  have hrule := Operation.succeeds_of_ok h.answer
  obtain ⟨hreply, hlocals, hheap, -⟩ := hrule.of_enters h.enters
  exact ⟨(Reply.level.inj hreply).symm, hlocals, hheap⟩

omit [LawfulJoin L] in
theorem Closed.left_eq {b : Branch L} {p : L} {tag : Tag} (h : b.Closed p tag) :
    (b.left tag).1.locals = b.inside.1.locals ∧ (b.left tag).2 = b.inside.2 := by
  obtain ⟨q, hexit⟩ := h.exits
  obtain ⟨hlocals, hheap, -⟩ := (Operation.succeeds_of_ok hexit).of_exit
  exact ⟨hlocals, hheap⟩

/-- While the branch is open, a local to whose declaration PC its program counter
does not flow is held, unless it is relabelled. -/
theorem Open.held {b : Branch L} {p : L} (h : b.Open p) {x : String} {slot : LocalLabel L}
    (hx : b.before.1.locals.find? x = some slot) (hunder : ¬ p ≤ slot.declaredUnder)
    (hspared : Event.Spared x b.entered b.events) :
    Held p slot (b.inside.1.locals.find? x) := by
  obtain ⟨hpc, hlocals, -⟩ := h.entered_eq
  subst hpc
  refine Event.held_after (Extends.refl _) h.staysOpen hunder hspared ?_
  rw [hlocals, hx]
  exact Held.refl _ slot

theorem Open.kept {b : Branch L} {p : L} (h : b.Open p)
    (hevents : ∀ event ∈ b.events, event.OwnChecked) {id : Handle} {key : String} {level : L}
    (hslot : b.before.2.level? id key = some level) :
    Kept p level (b.inside.2.level? id key) := by
  obtain ⟨hpc, -, hheap⟩ := h.entered_eq
  subst hpc
  refine Event.kept_after (Extends.refl _) h.staysOpen hevents ?_
  rw [hheap, hslot]
  exact ⟨level, rfl, Or.inl rfl⟩

/-- **A branch is confined to its program counter.** Let a session enter a
branch with program counter `p`, go through any operations that label nothing by
hand, and leave it. A local to whose declaration PC `p` does not flow ends at a
level that flows to the one it had, unchanged or at `p` or above; in particular
it is unchanged when `p` does not flow to the level it had. A heap slot ends
unchanged or at `p` or above. -/
theorem confined {b : Branch L} {p : L} {tag : Tag} (h : b.Closed p tag)
    (hevents : ∀ event ∈ b.events, event.OwnChecked) :
    (∀ x slot, b.before.1.locals.find? x = some slot → ¬ p ≤ slot.declaredUnder →
      ∃ slot', (b.left tag).1.locals.find? x = some slot' ∧ slot'.level ≤ slot.level ∧
        (slot' = slot ∨ p ≤ slot'.level) ∧ (¬ p ≤ slot.level → slot' = slot)) ∧
    ∀ id key level, b.before.2.level? id key = some level →
      ∃ level', (b.left tag).2.level? id key = some level' ∧ (level' = level ∨ p ≤ level') := by
  obtain ⟨hlocals, hheap⟩ := h.left_eq
  constructor
  · intro x slot hx hunder
    have hspared := Event.spared_of_ownChecked hevents x b.entered
    obtain ⟨slot', hfound, -, hle, hsame⟩ := h.held hx hunder hspared
    refine ⟨slot', by rw [hlocals]; exact hfound, hle, hsame, ?_⟩
    intro hbelow
    rcases hsame with heq | hp
    · exact heq
    · exact absurd (le_trans hp hle) hbelow
  · intro id key level hslot
    obtain ⟨level', hfound, hsame⟩ := h.kept hevents hslot
    exact ⟨level', by rw [hheap]; exact hfound, hsame⟩

section Witness

open CategorySet (ofBits)

/-- A branch on category 0 with a branch on category 1 inside. There `y` is
refused a write and an array element is written under its decimal name; outside
it `x` is lowered. -/
def onFirstCategory : Branch (CategorySet 2) where
  before := Event.after (.root {}, .empty)
    [.own (.declare "x"), .own (.label "x" .full), .own (.declare "y"),
      .own (.label "y" (ofBits 1)), .own (.trackArray ⟨7⟩ 2)]
  entering := .enter ⟨"outer"⟩ [ofBits 1]
  events :=
    [.own (.enter ⟨"inner"⟩ [ofBits 2]), .own (.write "x" .empty), .own (.write "y" .empty),
      .own (.writeField ⟨7⟩ "1" .empty), .own (.exit ⟨"inner"⟩), .own (.exit ⟨"elsewhere"⟩),
      .own (.declare "x"), .own (.write "x" .empty)]

theorem confined_onFirstCategory :
    onFirstCategory.Closed (ofBits 1) ⟨"outer"⟩ ∧
    (∀ event ∈ onFirstCategory.events, event.OwnChecked) ∧
    (∃ slot', (onFirstCategory.left ⟨"outer"⟩).1.locals.find? "x" = some slot' ∧
      slot'.level ≤ .full ∧ (slot' = ⟨.full, .empty⟩ ∨ ofBits 1 ≤ slot'.level)) ∧
    ∃ level', (onFirstCategory.left ⟨"outer"⟩).2.level? ⟨7⟩ "1" = some level' ∧
      (level' = .empty ∨ ofBits 1 ≤ level') := by
  have hclosed : onFirstCategory.Closed (ofBits 1) ⟨"outer"⟩ :=
    { enters := trivial
      answer := by rfl
      staysOpen := by decide
      innermost := by rfl
      exits := ⟨.empty, by rfl⟩ }
  have hevents : ∀ event ∈ onFirstCategory.events, event.OwnChecked := by
    simp [onFirstCategory, Event.OwnChecked, Operation.Checked]
  obtain ⟨hlocals, hslots⟩ := confined hclosed hevents
  obtain ⟨slot', hfound, hle, hsame, -⟩ := hlocals "x" ⟨.full, .empty⟩ (by rfl) (by decide)
  exact ⟨hclosed, hevents, ⟨slot', hfound, hle, hsame⟩, hslots ⟨7⟩ "1" .empty (by rfl)⟩

end Witness

end Branch

end InfoFlow
