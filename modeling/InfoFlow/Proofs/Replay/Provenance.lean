import Mathlib.Data.Finset.Lattice.Basic
import InfoFlow.Level.Chain
import InfoFlow.Proofs.Replay.CallChain
import InfoFlow.Proofs.Replay.LegalPart

/-!
# Where values come from

Beside a replay stands a plain account of explicit flows: which origins have
reached each place that carries a level. An origin is a label that was asserted or
a level that stands among operands. The account knows nothing of levels, program
counters or checks; it only carries sets of origins from the places that a step
reads to the one that it assigns (`Provenance.next`).

The replay never falls behind it: the level of a place is at or above every
origin that has reached the place (`run_provenance_le`). The invariant is
`Covers`; a step keeps it because what the step does not assign keeps its level
(`Covers.does`).
-/

namespace InfoFlow

open Level (join bottom)
open LawfulJoin

variable {L : Type}

/-! ## §1  Origins and places -/

/-- Where a level enters a run: it was asserted at a step, or it stands at a
position among the operands of a step. -/
inductive Origin (L : Type) where
  | assertion (step : Nat) (level : L)
  | literal (step position : Nat) (level : L)
deriving DecidableEq, Repr

def Origin.level : Origin L → L
  | assertion _ level => level
  | literal _ _ level => level

/-- A place of a replay that carries a level: a local or an argument of an open
frame, a heap slot, what an open frame is going to return, and what a closed
frame has returned. -/
inductive Location where
  | local (frame name : String)
  | argument (frame : String) (position : Nat)
  | slot (id : Handle) (key : String)
  | result (frame : String)
  | returned (frame : String)
deriving DecidableEq, Repr

namespace Location

/-- The frame whose activation the place belongs to. -/
def activation? : Location → Option String
  | .local frame _ => some frame
  | argument frame _ => some frame
  | result frame => some frame
  | _ => none

/-- The place that a target means for a frame. -/
def ofTarget (frame : String) : Target → Location
  | .local name => .local frame name
  | .slot id key => slot id key
  | .result => result frame

end Location

/-- The level that a replay has for a place, if it has one. -/
def Replay.label? (r : Replay L) : Location → Option L
  | .local frame name => r.levelAt? frame (.local name)
  | .argument frame position => r.frames[frame]?.bind fun s => s.arguments[position]?
  | .slot id key => r.heap.level? id key
  | .result frame => r.levelAt? frame .result
  | .returned frame => r.returned[frame]?.join

/-- Where an action puts a level: a commit, or an explicit label. -/
def Action.assigned? : Action L → Option Target
  | label name _ => some (.local name)
  | labelField object field _ => some (.slot object field)
  | action => action.target?

theorem Action.assigned?_operation (action : Action L) (level : L) :
    (action.operation level).assigned? = action.assigned? := by
  cases action <;> rfl

/-! ## §2  The account of explicit flows -/

/-- The origins that have reached each place. -/
def Provenance (L : Type) : Type := Location → Finset (Origin L)

namespace Provenance

/-- At the beginning no origin has reached any place. -/
def empty : Provenance L := fun _ => ∅

variable [Level L]

/-- The origins of an operand of `frame`. A constant has none, a literal level is
its own. -/
def ofOperand (p : Provenance L) (frame : String) (step position : Nat) :
    Operand L → Finset (Origin L)
  | .local name => p (.local frame name)
  | .field object name => p (.slot object name)
  | .element array index => p (.slot array (indexKey index))
  | .constant => ∅
  | .literal level => {.literal step position level}

/-- The origins of a value computed from these operands, the first of which has
this position. -/
def ofOperands (p : Provenance L) (frame : String) (step : Nat) :
    (position : Nat) → List (Operand L) → Finset (Origin L)
  | _, [] => ∅
  | position, operand :: operands =>
      p.ofOperand frame step position operand ∪ p.ofOperands frame step (position + 1) operands

/-- The origins of the value that an action of `frame` puts somewhere. -/
def ofAction (p : Provenance L) (frame : String) (step : Nat) : Action L → Finset (Origin L)
  | .write _ operands => p.ofOperands frame step 0 operands
  | .writeField _ _ operands => p.ofOperands frame step 0 operands
  | .writeElement _ _ operands => p.ofOperands frame step 0 operands
  | .label _ level => {.assertion step level}
  | .labelField _ _ level => {.assertion step level}
  | .bindArgument position _ => p (.argument frame position.toNat)
  | .returnLocal name => p (.local frame name)
  | _ => ∅

omit [Level L] in
/-- Other origins for one place. -/
def put (p : Provenance L) (location : Location) (origins : Finset (Origin L)) : Provenance L :=
  fun other => if other = location then origins else p other

omit [Level L] in
theorem put_self (p : Provenance L) (location : Location) (origins : Finset (Origin L)) :
    p.put location origins location = origins :=
  if_pos rfl

omit [Level L] in
theorem put_of_ne (p : Provenance L) {location other : Location} (h : other ≠ location)
    (origins : Finset (Origin L)) : p.put location origins other = p other :=
  if_neg h

/-- What a call passes to the places of the activation that it begins. -/
def passed (p : Provenance L) (frame : String) (step : Nat) (arguments : List (Operand L)) :
    Provenance L
  | .argument _ position => (arguments[position]?).elim ∅ (p.ofOperand frame step position)
  | _ => ∅

/-- Frame `callee` is called from `frame`: a new activation begins with what it is
passed, and what the one before has returned is forgotten. -/
def call (p : Provenance L) (frame : String) (step : Nat) (callee : String)
    (arguments : List (Operand L)) : Provenance L :=
  fun location =>
    if location.activation? = some callee then p.passed frame step arguments location
    else if location = .returned callee then ∅
    else p location

omit [Level L] in
/-- The activation of `frame` ends, and what it returns is kept. -/
def close (p : Provenance L) (frame : String) : Provenance L :=
  fun location =>
    if location.activation? = some frame then ∅
    else if location = .returned frame then p (.result frame)
    else p location

/-- The account after a step that succeeded: what the step assigns has the origins
of what it reads. -/
def next (p : Provenance L) (index : Nat) (step : Step L) : Provenance L :=
  match step.op with
  | .action action =>
      match action.assigned? with
      | some target => p.put (.ofTarget step.frame target) (p.ofAction step.frame index action)
      | none => p
  | .call callee arguments => p.call step.frame index callee arguments
  | .close => p.close step.frame
  | .takeReturn callee name => p.put (.local step.frame name) (p (.returned callee))

end Provenance

/-- The account of a replay that came to this report. A step that ended in an
illegal flow has carried nothing anywhere. -/
def Report.provenance [Level L] (report : Report) (trace : Trace L) : Provenance L :=
  (report.legal (trace.steps.take report.stepsExecuted)).foldl
    (fun p step => p.next step.2 step.1) .empty

/-! ## §3  Levels above origins -/

/-- There is a level, at or above each of the origins, unless there is no origin. -/
def Dominates [Level L] (level? : Option L) (origins : Finset (Origin L)) : Prop :=
  ∀ origin ∈ origins, ∃ level, level? = some level ∧ origin.level ≤ level

section Dominates

variable [Level L] {level? level?' : Option L} {origins origins' : Finset (Origin L)}

theorem dominates_empty (level? : Option L) : Dominates level? (∅ : Finset (Origin L)) :=
  fun origin horigin => absurd horigin (Finset.notMem_empty origin)

theorem Dominates.keep (h : Dominates level? origins)
    (hkeep : ∀ level, level? = some level → level?' = some level) : Dominates level?' origins := by
  intro origin horigin
  obtain ⟨level, hlevel, hle⟩ := h origin horigin
  exact ⟨level, hkeep level hlevel, hle⟩

theorem Dominates.union (h : Dominates level? origins) (h' : Dominates level? origins') :
    Dominates level? (origins ∪ origins') := by
  intro origin horigin
  rcases Finset.mem_union.1 horigin with hleft | hright
  · exact h origin hleft
  · exact h' origin hright

variable [LawfulJoin L] {level level' : L}

theorem dominates_singleton (origin : Origin L) : Dominates (some origin.level) {origin} := by
  intro other hother
  obtain rfl := Finset.mem_singleton.1 hother
  exact ⟨other.level, rfl, le_refl _⟩

theorem Dominates.le (h : Dominates (some level) origins) (hle : level ≤ level') :
    Dominates (some level') origins := by
  intro origin horigin
  obtain ⟨found, hfound, horigin⟩ := h origin horigin
  obtain rfl := Option.some.inj hfound
  exact ⟨level', rfl, le_trans horigin hle⟩

end Dominates

/-! ## §4  What a step keeps -/

namespace Replay

variable [Level L] {r r₁ r' : Replay L} {frame : String} {s s' : Session L} {heap' : Heap L}
  {op : Operation L} {reply : Reply L} {location : Location} {level : L}

omit [Level L] in
theorem levelAt?_of_found (found : r.frames[frame]? = some s) (target : Target) :
    r.levelAt? frame target = s.levelAt? r.heap target := by
  unfold levelAt?
  rw [found, Option.bind_some]

omit [Level L] in
theorem label?_ofTarget (found : r.frames[frame]? = some s) (target : Target) :
    r.label? (.ofTarget frame target) = s.levelAt? r.heap target := by
  cases target with
  | «local» name => exact levelAt?_of_found found (.local name)
  | slot id key => rfl
  | result => exact levelAt?_of_found found .result

/-- A place keeps its level when an operation assigns another one. -/
theorem label?_setSession (found : r.frames[frame]? = some s)
    (rule : op.Succeeds s r.heap reply s' heap')
    (hne : ∀ target, op.assigned? = some target → location ≠ .ofTarget frame target)
    (hlevel : r.label? location = some level) :
    ({ r.setSession frame s' with heap := heap' } : Replay L).label? location = some level := by
  have hother : ∀ {f : String}, f ≠ frame → (r.setSession frame s').frames[f]? = r.frames[f]? := by
    intro f hf
    rw [frames_setSession, if_neg hf]
  have hown : ∀ target, location = .ofTarget frame target →
      ({ r.setSession frame s' with heap := heap' } : Replay L).levelAt? frame target =
        some level := by
    rintro target rfl
    rw [label?_ofTarget found] at hlevel
    rw [levelAt?_setSession]
    exact rule.levelAt?_of_ne (fun htarget => hne target htarget rfl) hlevel
  -- a local or a result may be one of this frame or of another
  cases location with
  | «local» f name =>
      by_cases hf : f = frame
      · subst hf
        exact hown (.local name) rfl
      · show ((r.setSession frame s').frames[f]?.bind fun s => s.levelAt? heap' (.local name)) = _
        rw [hother hf]
        exact hlevel
  | argument f position =>
      show ((r.setSession frame s').frames[f]?.bind fun s => s.arguments[position]?) = _
      rw [frames_setSession]
      split
      · rename_i hf
        subst hf
        have hpassed : (r.frames[f]?.bind fun s => s.arguments[position]?) = some level := hlevel
        rw [found, Option.bind_some] at hpassed
        rw [Option.bind_some, rule.arguments_eq, hpassed]
      · exact hlevel
  | slot id key => exact rule.level?_of_ne (fun htarget => hne _ htarget rfl) hlevel
  | result f =>
      by_cases hf : f = frame
      · subst hf
        exact hown .result rfl
      · show ((r.setSession frame s').frames[f]?.bind fun s => s.levelAt? heap' .result) = _
        rw [hother hf]
        exact hlevel
  | returned f => exact hlevel

omit [Level L] in
theorem label?_setSession_self (r : Replay L) (frame : String) (s : Session L) (heap : Heap L)
    (target : Target) :
    ({ r.setSession frame s with heap := heap } : Replay L).label? (.ofTarget frame target) =
      s.levelAt? heap target := by
  refine label?_ofTarget ?_ target
  show (r.setSession frame s).frames[frame]? = some s
  rw [frames_setSession, if_pos rfl]

omit [Level L] in
/-- What happens to a frame concerns no place of another one. -/
theorem label?_of_others (hheap : r'.heap = r.heap)
    (hframes : ∀ f, f ≠ frame → r'.frames[f]? = r.frames[f]?)
    (hreturns : ∀ f, f ≠ frame → r'.returned[f]? = r.returned[f]?)
    (hown : location.activation? ≠ some frame) (hreturned : location ≠ .returned frame) :
    r'.label? location = r.label? location := by
  have hlevelAt : ∀ f target, f ≠ frame → r'.levelAt? f target = r.levelAt? f target := by
    intro f target hf
    rw [levelAt?, levelAt?, hframes f hf, hheap]
  cases location with
  | «local» f name => exact hlevelAt f (.local name) fun hf => hown (congrArg some hf)
  | argument f position =>
      rw [label?, label?, hframes f fun hf => hown (congrArg some hf)]
  | slot id key => rw [label?, label?, hheap]
  | result f => exact hlevelAt f .result fun hf => hown (congrArg some hf)
  | returned f => rw [label?, label?, hreturns f fun hf => hreturned (hf ▸ rfl)]

omit [Level L] in
theorem label?_openRoot (s : Session L) (hown : location.activation? ≠ some frame)
    (hreturned : location ≠ .returned frame) :
    (r.openRoot frame s).label? location = r.label? location :=
  label?_of_others rfl (fun f hf => by rw [frames_openRoot, if_neg hf]) (fun _ _ => rfl)
    hown hreturned

omit [Level L] in
theorem label?_openFrame (s : Session L) (hown : location.activation? ≠ some frame)
    (hreturned : location ≠ .returned frame) :
    (r.openFrame frame s).label? location = r.label? location :=
  label?_of_others rfl (fun f hf => by rw [frames_openFrame, if_neg hf])
    (fun f hf => by rw [returned_openFrame, if_neg hf]) hown hreturned

omit [Level L] in
theorem label?_closeFrame (returned : Option L) (hown : location.activation? ≠ some frame)
    (hreturned : location ≠ .returned frame) :
    (r.closeFrame frame returned).label? location = r.label? location :=
  label?_of_others rfl (fun f hf => by rw [frames_closeFrame, if_neg hf])
    (fun f hf => by rw [returned_closeFrame, if_neg hf]) hown hreturned

end Replay

/-! ## §5  The invariant -/

namespace Provenance

open Replay (Acts Does)

variable [Level L] {p : Provenance L} {r r₁ r' : Replay L} {frame : String} {s s' : Session L}
  {heap' : Heap L} {op : Operation L} {reply : Reply L} {level : L}

/-- The replay is not behind the account: every place dominates its origins. -/
def Covers (r : Replay L) (p : Provenance L) : Prop :=
  ∀ location, Dominates (r.label? location) (p location)

theorem covers_empty (r : Replay L) : Covers r empty :=
  fun _ => dominates_empty _

/-- A root frame that is opened has no origins anywhere yet. -/
theorem Covers.acts (h : Covers r p) (hknows : r.KnowsFrames) (hacts : Acts r frame s r₁) :
    Covers r₁ p := by
  cases hacts with
  | isOpen found => exact h
  | opens absent fresh =>
      -- a frame that was never opened has no place with a level
      intro location
      refine (h location).keep fun level hlevel => ?_
      rw [Replay.label?_openRoot, hlevel]
      · intro hown
        cases location with
        | «local» f name =>
            cases hown
            simp [Replay.label?, Replay.levelAt?, absent] at hlevel
        | argument f position =>
            cases hown
            simp [Replay.label?, absent] at hlevel
        | slot id key => cases hown
        | result f =>
            cases hown
            simp [Replay.label?, Replay.levelAt?, absent] at hlevel
        | returned f => cases hown
      · rintro rfl
        rw [hknows.returned frame _ (Option.join_eq_some_iff.1 hlevel)] at fresh
        cases fresh

/-- What the operation of a frame assigns gets other origins; the rest stays. -/
theorem Covers.put (h : Covers r p) (found : r.frames[frame]? = some s)
    (rule : op.Succeeds s r.heap reply s' heap') {origins : Finset (Origin L)}
    (hassigned : ∀ target, op.assigned? = some target →
      Dominates (s'.levelAt? heap' target) origins) :
    Covers { r.setSession frame s' with heap := heap' }
      (match op.assigned? with
      | some target => p.put (.ofTarget frame target) origins
      | none => p) := by
  intro location
  have hkeep : (∀ target, op.assigned? = some target → location ≠ .ofTarget frame target) →
      Dominates (Replay.label? { r.setSession frame s' with heap := heap' } location)
        (p location) := by
    intro hne
    exact (h location).keep fun level => Replay.label?_setSession found rule hne
  cases htarget : op.assigned? with
  | none =>
      refine hkeep fun target hsome => ?_
      rw [htarget] at hsome
      cases hsome
  | some target =>
      dsimp only
      by_cases hlocation : location = .ofTarget frame target
      · subst hlocation
        rw [put_self, Replay.label?_setSession_self]
        exact hassigned target htarget
      · rw [put_of_ne p hlocation]
        refine hkeep fun target' htarget' => ?_
        obtain rfl := Option.some.inj (htarget.symm.trans htarget')
        exact hlocation

/-- A frame that opens or closes concerns the account of its own places alone. -/
theorem Covers.of_own {p' : Provenance L} (h : Covers r p) (frame : String)
    (hkept : ∀ location, location.activation? ≠ some frame → location ≠ .returned frame →
      r'.label? location = r.label? location ∧ p' location = p location)
    (howns : ∀ location, location.activation? = some frame →
      Dominates (r'.label? location) (p' location))
    (hreturned : Dominates (r'.label? (.returned frame)) (p' (.returned frame))) :
    Covers r' p' := by
  intro location
  by_cases hown : location.activation? = some frame
  · exact howns location hown
  · by_cases hhanded : location = .returned frame
    · subst hhanded
      exact hreturned
    · obtain ⟨hlabel, horigins⟩ := hkept location hown hhanded
      rw [hlabel, horigins]
      exact h location

/-! ## §6  Steps keep the invariant -/

variable [LawfulJoin L]

theorem Covers.ofOperand (h : Covers r p) (found : r.frames[frame]? = some s)
    {operand : Operand L} (hlevel : s.levelOf r.heap operand = .ok level) (step position : Nat) :
    Dominates (some level) (p.ofOperand frame step position operand) := by
  have hheap : ∀ {place : Place} {id : Handle} {key : String},
      Heap.orUnknown place (r.heap.level? id key) = .ok level →
      Dominates (some level) (p (.slot id key)) := by
    intro place id key hread
    have hdominates := h (.slot id key)
    cases hfound : r.heap.level? id key with
    | none =>
        rw [hfound] at hread
        cases hread
    | some slotLevel =>
        rw [hfound] at hread
        cases hread
        rw [← hfound]
        exact hdominates
  cases operand with
  | «local» name =>
      obtain ⟨slot, hslot, rfl⟩ := Locals.level_eq_ok.1 hlevel
      refine (h (.local frame name)).keep fun level hlabel => ?_
      rw [Replay.label?, Replay.levelAt?_of_found found, Session.levelAt?, hslot] at hlabel
      exact hlabel
  | field object name => exact hheap hlevel
  | element array index => exact hheap hlevel
  | constant => exact dominates_empty _
  | literal literal =>
      cases hlevel
      exact dominates_singleton (.literal step position _)

/-- Operands are joined, so each of them flows to what is computed from all. -/
theorem Covers.ofOperands (h : Covers r p) (found : r.frames[frame]? = some s)
    {operands : List (Operand L)} {start : L}
    (hlevel : (s.joinOperands r.heap start operands).result = .ok level) (step position : Nat) :
    start ≤ level ∧ Dominates (some level) (p.ofOperands frame step position operands) := by
  induction operands generalizing start position with
  | nil =>
      cases hlevel
      exact ⟨le_refl _, dominates_empty _⟩
  | cons operand operands ih =>
      rw [Session.result_joinOperands_cons] at hlevel
      cases hread : s.levelOf r.heap operand with
      | error e =>
          rw [hread] at hlevel
          cases hlevel
      | ok read =>
          rw [hread] at hlevel
          obtain ⟨hstart, hrest⟩ := ih hlevel (position + 1)
          obtain ⟨hstart, hfirst⟩ := join_le_iff.1 hstart
          exact ⟨hstart, ((h.ofOperand found hread step position).le hfirst).union hrest⟩

/-- What an action assigns dominates the origins of what it reads. -/
theorem Covers.ofAction (h : Covers r p) (found : r.frames[frame]? = some s) {action : Action L}
    (operands : (s.operandLevel r.heap action.operands).result = .ok level)
    (rule : (action.operation level).Succeeds s r.heap reply s' heap') (step : Nat)
    {target : Target} (htarget : action.assigned? = some target) :
    Dominates (s'.levelAt? heap' target) (p.ofAction frame step action) := by
  have hread : Dominates (some (join level s.pc.level))
      (p.ofOperands frame step 0 action.operands) :=
    (h.ofOperands found operands step 0).2.le (left_le_join _ _)
  cases action with
  | write name values =>
      cases htarget
      cases rule with
      | write hfound admitted =>
          rw [Session.levelAt?, Locals.find?_put_self]
          exact hread
  | writeField object field values =>
      cases htarget
      cases rule with
      | writeField set =>
          rw [Session.levelAt?, Heap.level?_setSlot?_self set]
          exact hread
  | writeElement array index values =>
      cases htarget
      cases rule with
      | writeElement set =>
          rw [Session.levelAt?, Heap.level?_setSlot?_self set]
          exact hread
  | label name asserted =>
      cases htarget
      cases rule with
      | label hfound =>
          rw [Session.levelAt?, Locals.find?_put_self]
          exact dominates_singleton (.assertion step asserted)
  | labelField object field asserted =>
      cases htarget
      cases rule with
      | labelField set =>
          rw [Session.levelAt?, Heap.level?_setSlot?_self set]
          exact dominates_singleton (.assertion step asserted)
  | bindArgument position name =>
      cases htarget
      cases rule with
      | bindArgument passed hfound =>
          rw [Session.levelAt?, Locals.find?_put_self]
          refine (h (.argument frame position.toNat)).keep fun level hlabel => ?_
          rw [Replay.label?, found, Option.bind_some, passed] at hlabel
          exact hlabel
  | returnLocal name =>
      cases htarget
      cases rule with
      | @returnLocal name slot hfound =>
          have hlocal := h (.local frame name)
          rw [Replay.label?, Replay.levelAt?_of_found found, Session.levelAt?, hfound] at hlocal
          exact Dominates.le hlocal (left_le_join _ _)
  | returnConstant => exact dominates_empty _
  | _ => cases htarget

/-- An argument dominates the origins of the operand that is passed. -/
theorem Covers.ofArguments (h : Covers r p) (found : r.frames[frame]? = some s)
    {arguments : List (Operand L)} {levels : List L}
    (hlevels : (s.argumentLevels r.heap arguments).result = .ok levels) (step shift : Nat)
    {position : Nat} {operand : Operand L} (hoperand : arguments[position]? = some operand) :
    ∃ level, levels[position]? = some level ∧
      Dominates (some level) (p.ofOperand frame step shift operand) := by
  induction arguments generalizing levels position with
  | nil => cases hoperand
  | cons argument arguments ih =>
      obtain ⟨first, hfirst, hmap⟩ := Outcome.result_andThen_eq_ok.1 hlevels
      obtain ⟨rest, hrest, rfl⟩ := Outcome.result_map_eq_ok.1 hmap
      cases position with
      | zero =>
          cases hoperand
          obtain ⟨-, hdominates⟩ := h.ofOperands found hfirst step shift
          refine ⟨first, rfl, fun origin horigin => hdominates origin ?_⟩
          exact Finset.mem_union_left _ horigin
      | succ position => exact ih hrest hoperand

theorem Covers.call (h : Covers r p) (found : r.frames[frame]? = some s) {callee : String}
    {arguments : List (Operand L)} {levels : List L}
    (hlevels : (s.argumentLevels r.heap arguments).result = .ok levels) (step : Nat) :
    Covers (r.openFrame callee (s.call callee levels)) (p.call frame step callee arguments) := by
  have hcallee : (r.openFrame callee (s.call callee levels)).frames[callee]? =
      some (s.call callee levels) := by
    rw [Replay.frames_openFrame, if_pos rfl]
  refine h.of_own callee ?_ ?_ ?_
  · intro location hown hreturned
    exact ⟨Replay.label?_openFrame _ hown hreturned,
      by rw [Provenance.call, if_neg hown, if_neg hreturned]⟩
  · intro location hown
    rw [Provenance.call, if_pos hown]
    cases location with
    | argument f position =>
        cases hown
        rw [passed]
        cases hoperand : arguments[position]? with
        | none => exact dominates_empty _
        | some operand =>
            obtain ⟨level, hlevel, hdominates⟩ := h.ofArguments found hlevels step position hoperand
            rw [Replay.label?, hcallee, Option.bind_some, Session.call, Session.start,
              List.getElem?_map, hlevel]
            exact hdominates.le (left_le_join _ _)
    | _ => exact dominates_empty _
  · rw [Provenance.call, if_neg (by rintro ⟨⟩), if_pos rfl]
    exact dominates_empty _

omit [LawfulJoin L] in
theorem Covers.close (h : Covers r p) (found : r.frames[frame]? = some s) :
    Covers (r.closeFrame frame s.returned) (p.close frame) := by
  refine h.of_own frame ?_ ?_ ?_
  · intro location hown hreturned
    exact ⟨Replay.label?_closeFrame _ hown hreturned,
      by rw [Provenance.close, if_neg hown, if_neg hreturned]⟩
  · intro location hown
    rw [Provenance.close, if_pos hown]
    exact dominates_empty _
  · rw [Provenance.close, if_neg (by rintro ⟨⟩), if_pos rfl]
    refine (h (.result frame)).keep fun level hlevel => ?_
    rw [Replay.label?, Replay.levelAt?_of_found found, Session.levelAt?] at hlevel
    rw [Replay.label?, Replay.returned_closeFrame, if_pos rfl, hlevel]
    rfl

/-- **A step that succeeds keeps the replay above the account.** -/
theorem Covers.does (h : Covers r p) (hknows : r.KnowsFrames) {step : Step L}
    (hdoes : Does r step r') (index : Nat) : Covers r' (p.next index step) := by
  cases hdoes with
  | @action frame action s s' r₁ level reply heap' acts operands rule =>
      have hopen := h.acts hknows acts
      have hput := hopen.put acts.found rule fun target htarget =>
        hopen.ofAction acts.found operands rule index
          ((action.assigned?_operation level).symm.trans htarget)
      rw [action.assigned?_operation level] at hput
      exact hput
  | call absent acts operands => exact (h.acts hknows acts).call acts.found operands index
  | close acts balanced => exact (h.acts hknows acts).close acts.found
  | @takeReturn frame callee name returned s s' r₁ reply heap' closed acts rule =>
      refine (h.acts hknows acts).put acts.found rule fun target htarget => ?_
      cases htarget
      -- what the callee has returned is joined with the program counter
      have hreturned : Dominates returned (p (.returned callee)) := by
        refine (h (.returned callee)).keep fun level hlevel => ?_
        rw [Replay.label?, closed] at hlevel
        exact hlevel
      cases rule with
      | write hfound admitted =>
          rw [Session.levelAt?, Locals.find?_put_self]
          intro origin horigin
          obtain ⟨level, hlevel, hle⟩ := hreturned origin horigin
          refine ⟨_, rfl, le_join_of_le_left _ ?_⟩
          rw [hlevel]
          exact hle

/-- Numbered steps that all succeed. -/
theorem Covers.doesAll {numbered : List (Step L × Nat)} (h : Covers r p) (hknows : r.KnowsFrames)
    (hdoes : Replay.DoesAll r (numbered.map Prod.fst) r') :
    Covers r' (numbered.foldl (fun p step => p.next step.2 step.1) p) := by
  induction numbered generalizing r p with
  | nil =>
      cases hdoes
      exact h
  | cons step numbered ih =>
      cases hdoes with
      | cons does rest => exact ih (h.does hknows does step.2) (hknows.does does) rest

end Provenance

namespace Replay

variable [Level L] [LawfulJoin L]

/-- **No explicit flow is lost.** Let a replay go as far as some step of a trace
without being aborted, stopping at the first illegal flow or going on after each.
Then every place is at or above all origins that have reached it. -/
theorem run_provenance_le (r : Replay L) (trace : Trace L) (n : Nat) {report : Report}
    (hrun : (r.run (trace.take n)).result = .ok report) (location : Location) :
    ∀ origin ∈ report.provenance (trace.take n) location,
      ∃ level, (r.run (trace.take n)).state.label? location = some level ∧
        origin.level ≤ level := by
  obtain ⟨done, rest, hsteps, hexecuted, hadvances, -⟩ := advances_of_run hrun
  have hdone : (trace.take n).steps.take report.stepsExecuted = done := by
    rw [hsteps, hexecuted, List.take_left]
  obtain ⟨hdoes, -⟩ := hadvances.doesAll fun i _ => Iff.rfl
  have hcovers := (Provenance.covers_empty r.reset).doesAll (knowsFrames_new _ _) hdoes
  unfold Report.provenance Report.legal
  rw [hdone]
  exact hcovers location

/-- A secret goes through an array element, is read back as a field, and comes home
from a call; on the way it is kept from a public sink. -/
def roundabout : Trace ThreeLevel where
  description := ""
  steps :=
    [⟨"main", .action (.declare "x")⟩, ⟨"main", .action (.label "x" .high)⟩,
      ⟨"main", .action (.trackArray ⟨7⟩ 1)⟩, ⟨"main", .action (.writeElement ⟨7⟩ 0 [.local "x"])⟩,
      ⟨"main", .action (.declare "y")⟩,
      ⟨"main", .action (.write "y" [.field ⟨7⟩ "0", .literal .medium])⟩,
      ⟨"main", .call "f" [.constant, .local "y"]⟩, ⟨"f", .action (.bindArgument 1 "a")⟩,
      ⟨"f", .action (.returnLocal "a")⟩, ⟨"f", .close⟩, ⟨"main", .action (.checkSink "y" .low)⟩,
      ⟨"main", .action (.declare "z")⟩, ⟨"main", .takeReturn "f" "z"⟩,
      ⟨"main", .action (.checkSink "z" .low)⟩, ⟨"f", .close⟩]

theorem run_provenance_le_roundabout :
    ∃ report, ((new {} true).run (roundabout.take 14)).result = .ok report ∧
      report.violations.map (·.step) = [10, 13] ∧
      ∃ level, ((new {} true).run (roundabout.take 14)).state.label? (.local "main" "z") =
        some level ∧ .high ≤ level := by
  have hrun : ((new {} true).run (roundabout.take 14)).result =
      .ok ⟨14, [⟨10, "main", "Illegal flow to local 'y': level HIGH exceeds sink bound LOW"⟩,
        ⟨13, "main", "Illegal flow to local 'z': level HIGH exceeds sink bound LOW"⟩]⟩ := by
    rfl
  exact ⟨_, hrun, rfl, run_provenance_le _ _ 14 hrun (.local "main" "z") (.assertion 1 .high)
    (by decide)⟩

end Replay

end InfoFlow
