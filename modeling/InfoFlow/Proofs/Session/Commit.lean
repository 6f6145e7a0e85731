import InfoFlow.Proofs.Session.Run

/-!
# What a session commits

A *commit* is an operation that gives a value a level which the rules on flows
have computed: a write, the binding of an argument, the recording of what the
frame returns. What it commits is at the program counter or above, or it is the
level of an argument (`Succeeds.commits`). A session that was opened at `g` or
above, with arguments at `g` or above, therefore stays `Above` it.
-/

namespace InfoFlow

open ProgramCounter (Extends)
open LawfulJoin

variable {L : Type}

/-! ## §1  Commits -/

/-- Where a commit puts a level. -/
inductive Target where
  | local (name : String)
  | slot (id : Handle) (key : String)
  | result
deriving DecidableEq, Repr

/-- The level at a target, if there is one. -/
def Session.levelAt? (s : Session L) (heap : Heap L) : Target → Option L
  | .local name => (s.locals.find? name).map (·.level)
  | .slot id key => heap.level? id key
  | .result => s.returned

namespace Operation

/-- Where an operation commits, if it is a commit. -/
def target? : Operation L → Option Target
  | write name _ => some (.local name)
  | writeField id field _ => some (.slot id field)
  | writeElement id index _ => some (.slot id (indexKey index))
  | bindArgument _ name => some (.local name)
  | returnLocal _ => some .result
  | returnConstant => some .result
  | _ => none

/-- Where an operation puts a level: a commit, or an explicit label. -/
def assigned? : Operation L → Option Target
  | label name _ => some (.local name)
  | labelField id field _ => some (.slot id field)
  | op => op.target?

variable [Level L] [LawfulJoin L] {s s' : Session L} {heap heap' : Heap L} {op : Operation L}
  {reply : Reply L}

/-- **What is committed is above the program counter**, or it is an argument. -/
theorem Succeeds.commits (h : Succeeds s heap op reply s' heap') {target : Target}
    (htarget : op.target? = some target) :
    ∃ level, reply = .level level ∧ s'.levelAt? heap' target = some level ∧
      (s.pc.level ≤ level ∨ level ∈ s.arguments) := by
  cases h with
  | write found admitted =>
      cases htarget
      refine ⟨_, rfl, ?_, Or.inl (right_le_join _ _)⟩
      simp [Session.levelAt?]
  | @writeField id field operand previous heap' set =>
      cases htarget
      exact ⟨_, rfl, Heap.level?_setSlot?_self set, Or.inl (right_le_join _ _)⟩
  | @writeElement id index operand previous heap' set =>
      cases htarget
      exact ⟨_, rfl, Heap.level?_setSlot?_self set, Or.inl (right_le_join _ _)⟩
  | bindArgument passed found =>
      cases htarget
      refine ⟨_, rfl, ?_, Or.inr (List.mem_of_getElem? passed)⟩
      simp [Session.levelAt?]
  | returnLocal found =>
      cases htarget
      exact ⟨_, rfl, rfl, Or.inl (right_le_join _ _)⟩
  | returnConstant =>
      cases htarget
      exact ⟨_, rfl, rfl, Or.inl (le_refl _)⟩
  | _ => cases htarget

omit [Level L] [LawfulJoin L] in
theorem level?_of_setSlot?_of_ne {id id' : Handle} {key key' : String} {level previous old : L}
    (set : heap.setSlot? id' key' level = some (previous, heap'))
    (hne : some (Target.slot id' key') ≠ some (.slot id key))
    (hold : heap.level? id key = some old) : heap'.level? id key = some old := by
  rw [(Heap.setSlot?_eq_some set).2, if_neg, hold]
  rintro ⟨rfl, rfl⟩
  exact hne rfl

omit [LawfulJoin L] in
theorem Succeeds.level?_of_ne (h : Succeeds s heap op reply s' heap') {id : Handle} {key : String}
    (hne : op.assigned? ≠ some (.slot id key)) {level : L}
    (hlevel : heap.level? id key = some level) : heap'.level? id key = some level := by
  cases h with
  | trackObject id' => rw [Heap.level?_trackObject, hlevel]
  | trackField id' field => exact level?_trackField_of_some hlevel
  | trackArray id' length => exact level?_trackArray_of_some hlevel
  | newObject => rw [Heap.level?_allocate, hlevel]
  | newArray length =>
      refine level?_trackArray_of_some ?_
      rw [Heap.level?_allocate, hlevel]
  | writeField set => exact level?_of_setSlot?_of_ne set hne (level?_withField_of_some hlevel)
  | writeElement set => exact level?_of_setSlot?_of_ne set hne (level?_withElement_of_some hlevel)
  | labelField set => exact level?_of_setSlot?_of_ne set hne (level?_withField_of_some hlevel)
  | _ => exact hlevel

omit [LawfulJoin L] in
/-- What an operation does not assign keeps its level. -/
theorem Succeeds.levelAt?_of_ne (h : Succeeds s heap op reply s' heap') {target : Target}
    (hne : op.assigned? ≠ some target) {level : L} (hlevel : s.levelAt? heap target = some level) :
    s'.levelAt? heap' target = some level := by
  cases target with
  | «local» name =>
      obtain ⟨slot, hslot, rfl⟩ := Option.map_eq_some_iff.1 hlevel
      obtain ⟨slot', hslot', -, rfl | hrelabels | ⟨operand, rfl, -⟩⟩ := h.find?_cases hslot
      · exact Option.map_eq_some_iff.2 ⟨slot', hslot', rfl⟩
      · refine absurd ?_ hne
        cases op with
        | label name' level => exact congrArg (fun name => some (Target.local name)) hrelabels
        | bindArgument position name' =>
            exact congrArg (fun name => some (Target.local name)) hrelabels
        | _ => exact hrelabels.elim
      · exact absurd rfl hne
  | slot id key => exact h.level?_of_ne hne hlevel
  | result =>
      cases h with
      | returnLocal found => exact absurd rfl hne
      | returnConstant => exact absurd rfl hne
      | _ => exact hlevel

omit [LawfulJoin L] in
theorem Succeeds.arguments_eq (h : Succeeds s heap op reply s' heap') :
    s'.arguments = s.arguments := by
  cases h <;> rfl

theorem Succeeds.returned_cases (h : Succeeds s heap op reply s' heap') :
    s'.returned = s.returned ∨ ∃ level, s'.returned = some level ∧ s.pc.level ≤ level := by
  cases h with
  | returnLocal found => exact Or.inr ⟨_, rfl, right_le_join _ _⟩
  | returnConstant => exact Or.inr ⟨_, rfl, le_refl _⟩
  | _ => exact Or.inl rfl

end Operation

/-! ## §2  Sessions above a level -/

namespace Session

variable [Level L]

/-- A session that was opened at `g` or above: so are its program counter, its
arguments and the return level that it has recorded. -/
structure Above (g : L) (s : Session L) : Prop where
  opened : ∃ base, g ≤ base ∧ Extends (.start base none) s.pc
  arguments : ∀ level ∈ s.arguments, g ≤ level
  returned : ∀ level, s.returned = some level → g ≤ level

variable [LawfulJoin L] {g : L} {s : Session L}

theorem Above.le_pc (h : s.Above g) : g ≤ s.pc.level := by
  obtain ⟨base, hbase, hextends⟩ := h.opened
  exact le_trans hbase hextends.level_le

theorem above_call {caller : Session L} (h : g ≤ caller.pc.level) (callee : String)
    (levels : List L) : (caller.call callee levels).Above g where
  opened := ⟨caller.pc.level, h, rfl, [], rfl, fun _ hscope => absurd hscope List.not_mem_nil⟩
  arguments := by
    intro level hlevel
    obtain ⟨passed, -, rfl⟩ := List.mem_map.1 hlevel
    exact le_join_of_le_right passed h
  returned := by
    rintro level ⟨⟩

end Session

namespace Operation

variable [Level L] [LawfulJoin L] {s s' : Session L} {heap heap' : Heap L} {op : Operation L}
  {reply : Reply L}

theorem Succeeds.above (h : Succeeds s heap op reply s' heap') {g : L} (hs : s.Above g) :
    s'.Above g := by
  constructor
  · obtain ⟨base, hbase, hextends⟩ := hs.opened
    refine ⟨base, hbase, ?_⟩
    rcases h.pc_cases with hpc | ⟨tag, condition, -, hpc⟩ | ⟨tag, hpc⟩
    · rw [hpc]
      exact hextends
    · exact hextends.enter hpc
    · -- no scope was open at the opening, so none of those is left
      exact hextends.leave hpc (Nat.zero_le _)
  · rw [h.arguments_eq]
    exact hs.arguments
  · intro level hlevel
    rcases h.returned_cases with hsame | ⟨level', hnew, hle⟩
    · rw [hsame] at hlevel
      exact hs.returned level hlevel
    · obtain rfl : level' = level := Option.some.inj (hnew.symm.trans hlevel)
      exact le_trans hs.le_pc hle

/-- What a session above `g` commits is at `g` or above. -/
theorem Succeeds.le_committed (h : Succeeds s heap op reply s' heap') {g : L} (hs : s.Above g)
    {target : Target} (htarget : op.target? = some target) :
    ∃ level, s'.levelAt? heap' target = some level ∧ g ≤ level := by
  obtain ⟨level, -, hcommitted, hpc | hargument⟩ := h.commits htarget
  · exact ⟨level, hcommitted, le_trans hs.le_pc hpc⟩
  · exact ⟨level, hcommitted, hs.arguments level hargument⟩

end Operation

end InfoFlow
