import InfoFlow.Level.Chain
import InfoFlow.Proofs.Session.Commit

/-!
# What a sink lets through

A sink asks for the level of a local and for nothing else: whether the program counter
flows to it makes no difference (`not_forall_pc_le`). It is the write that has looked at
the program counter. A local that was written carries the program counter of that write
in its level, until it is set again (`SetBy.floor?`). So what is output inside a branch is
held back by the sink if the local was last written inside this branch. A local from before
the branch is let through by its own level. So is one that an argument was bound to: the
argument carries the level at which the frame was called, and nothing of the place where it
is bound, be it inside the branch (`sinks`).
-/

namespace InfoFlow

open Level (join bottom top)
open LawfulJoin

variable {L : Type}

/-! ## §1  Open scopes and their levels -/

namespace ProgramCounter

/-- The program counter as it was, or will be, with only these scopes open. -/
def withScopes (pc : ProgramCounter L) (scopes : List (Scope L)) : ProgramCounter L :=
  { pc with scopes }

/-- The further in, the higher the level. -/
def Nested [Level L] (pc : ProgramCounter L) : Prop :=
  ∀ inner outer, inner <:+ pc.scopes → outer <:+ inner →
    (pc.withScopes outer).level ≤ (pc.withScopes inner).level

variable [Level L] [LawfulJoin L] {pc pc' : ProgramCounter L}

theorem nested_nil (h : pc.scopes = []) : pc.Nested := by
  intro inner outer hinner houter
  rw [h] at hinner
  obtain rfl := List.suffix_nil.1 hinner
  obtain rfl := List.suffix_nil.1 houter
  exact le_refl _

theorem Nested.enter (h : pc.Nested) {condition : L} {tag : Tag}
    (henter : pc.enter condition tag = .ok pc') : pc'.Nested := by
  obtain ⟨-, rfl⟩ := enter_eq_ok.1 henter
  have hcurrent : pc.withScopes pc.scopes = pc := rfl
  intro inner outer hinner houter
  rcases List.suffix_cons_iff.1 hinner with rfl | hinner
  · rcases List.suffix_cons_iff.1 houter with rfl | houter
    · exact le_refl _
    · -- the scopes below the new one were at the level of `pc` at most
      have hbelow := h pc.scopes outer (List.suffix_refl _) houter
      rw [hcurrent] at hbelow
      exact le_join_of_le_left _ hbelow
  · exact h inner outer hinner houter

omit [LawfulJoin L] in
theorem Nested.leave (h : pc.Nested) {tag : Tag} (hleave : pc.leave tag = .ok pc') :
    pc'.Nested := by
  obtain ⟨scope, outer, hscopes, -, rfl⟩ := leave_eq_ok.1 hleave
  intro inner outer' hinner houter
  refine h inner outer' ?_ houter
  rw [hscopes]
  exact hinner.trans (List.suffix_cons scope outer)

omit [LawfulJoin L] in
/-- A branch that was open under `pc` is at the level of `pc` at most, now as then. -/
theorem Nested.withScopes_le (h : pc.Nested) (hbase : pc.base = pc'.base)
    {scopes : List (Scope L)} (hscopes : scopes <:+ pc.scopes) :
    (pc'.withScopes scopes).level ≤ pc.level := by
  have hsame : (pc'.withScopes scopes).level = (pc.withScopes scopes).level := by
    unfold level withScopes
    rw [hbase]
  rw [hsame]
  exact h pc.scopes scopes (List.suffix_refl _) hscopes

end ProgramCounter

namespace Operation

variable [Level L] [LawfulJoin L] {s s' : Session L} {heap heap' : Heap L} {op : Operation L}
  {reply : Reply L}

theorem Succeeds.nested (h : Succeeds s heap op reply s' heap') (hs : s.pc.Nested) :
    s'.pc.Nested := by
  rcases h.pc_cases with hpc | ⟨tag, condition, -, hpc⟩ | ⟨tag, hpc⟩
  · rw [hpc]
    exact hs
  · exact hs.enter hpc
  · exact hs.leave hpc

theorem Succeeds.base_eq (h : Succeeds s heap op reply s' heap') : s'.pc.base = s.pc.base := by
  rcases h.pc_cases with hpc | ⟨tag, condition, -, hpc⟩ | ⟨tag, hpc⟩
  · rw [hpc]
  · obtain ⟨-, hpc⟩ := ProgramCounter.enter_eq_ok.1 hpc
    rw [hpc]
  · obtain ⟨scope, outer, -, -, hpc⟩ := ProgramCounter.leave_eq_ok.1 hpc
    rw [hpc]

end Operation

/-! ## §2  What has set a local last -/

/-- What has set the level of a local last. -/
inductive SetBy (L : Type) where
  /-- Nothing but its declaration, if it is declared. -/
  | declaration
  /-- A write under this program counter. -/
  | write (under : ProgramCounter L)
  /-- The binding of an argument. -/
  | argument
  /-- A label by hand. -/
  | label

/-- What has set local `x` last, after this operation under `pc`. -/
def Operation.setBy (op : Operation L) (x : String) (pc : ProgramCounter L) (before : SetBy L) :
    SetBy L :=
  match op with
  | .write name _ => if name = x then .write pc else before
  | .bindArgument _ name => if name = x then .argument else before
  | .label name _ => if name = x then .label else before
  | _ => before

/-- What has set local `x` last in these events. Operations that fail set nothing. -/
def Event.setBy [Level L] (x : String) (state : Session L × Heap L) (before : SetBy L) :
    List (Event L) → SetBy L
  | [] => before
  | .own op :: events =>
      setBy x ((Event.own op).apply state)
        (if (op.perform state.1 state.2).result.isOk then op.setBy x state.1.pc before else before)
        events
  | .others heap :: events => setBy x ((Event.others heap).apply state) before events

/-- The level that a local is at or above for what has set it last, in a frame that was called
at `base`: a write looks at the program counter, an argument was raised by the call. -/
def SetBy.floor? [Level L] (setBy : SetBy L) (base : L) : Option L :=
  match setBy with
  | .write under => some under.level
  | .argument => some base
  | .declaration | .label => none

/-- Local `x` is declared, at this level or above. -/
def Locals.AtLeast [Level L] (locals : Locals L) (x : String) (level : L) : Prop :=
  ∃ slot, locals.find? x = some slot ∧ level ≤ slot.level

/-- Local `x` is at the floor of what has set it last, and the program counter of a write is
nested, with the base of this session. -/
structure SetBy.Accords [Level L] (setBy : SetBy L) (s : Session L) (x : String) : Prop where
  floor : ∀ level, setBy.floor? s.pc.base = some level → s.locals.AtLeast x level
  under : ∀ pc, setBy = .write pc → pc.Nested ∧ pc.base = s.pc.base

namespace Operation

variable [Level L] [LawfulJoin L] {s s' : Session L} {heap heap' : Heap L} {op : Operation L}
  {reply : Reply L} {x : String} {level : L} {before : SetBy L}

omit [Level L] [LawfulJoin L] in
theorem setBy_of_ne {pc : ProgramCounter L} (hne : op.assigned? ≠ some (.local x)) :
    op.setBy x pc before = before := by
  have hname : ∀ {name : String}, some (Target.local name) ≠ some (.local x) → name ≠ x := by
    rintro name hname rfl
    exact hname rfl
  cases op with
  | write name operand => exact if_neg (hname hne)
  | bindArgument position name => exact if_neg (hname hne)
  | label name level => exact if_neg (hname hne)
  | _ => rfl

omit [LawfulJoin L] in
/-- What is not assigned stays where it was. -/
theorem Succeeds.atLeast_of_ne (h : Succeeds s heap op reply s' heap')
    (hne : op.assigned? ≠ some (.local x)) (hx : s.locals.AtLeast x level) :
    s'.locals.AtLeast x level := by
  obtain ⟨slot, hslot, hlevel⟩ := hx
  have hbefore : s.levelAt? heap (.local x) = some slot.level :=
    Option.map_eq_some_iff.2 ⟨slot, hslot, rfl⟩
  obtain ⟨slot', hslot', hsame⟩ := Option.map_eq_some_iff.1 (h.levelAt?_of_ne hne hbefore)
  refine ⟨slot', hslot', ?_⟩
  rw [hsame]
  exact hlevel

/-- **An operation leaves a local at the floor** of what has set it last. -/
theorem Succeeds.accords (h : Succeeds s heap op reply s' heap') (hnested : s.pc.Nested)
    (harguments : ∀ level ∈ s.arguments, s.pc.base ≤ level) (hbefore : before.Accords s x) :
    (op.setBy x s.pc before).Accords s' x := by
  have hbase := h.base_eq
  by_cases hassigned : op.assigned? = some (.local x)
  · cases h with
    | @write name operand slot found raised =>
        cases hassigned
        rw [show setBy (.write x operand) x s.pc before = .write s.pc from if_pos rfl]
        refine ⟨?_, ?_⟩
        · rintro level ⟨⟩
          exact ⟨_, Locals.find?_put_self _ _ _, right_le_join _ _⟩
        · rintro under ⟨⟩
          exact ⟨hnested, rfl⟩
    | @bindArgument position name passed slot hpassed found =>
        cases hassigned
        rw [show setBy (.bindArgument position x) x s.pc before = .argument from if_pos rfl]
        refine ⟨?_, nofun⟩
        rintro level ⟨⟩
        exact ⟨_, Locals.find?_put_self _ _ _, harguments passed (List.mem_of_getElem? hpassed)⟩
    | @label name label slot found =>
        cases hassigned
        rw [show setBy (.label x label) x s.pc before = .label from if_pos rfl]
        exact ⟨nofun, nofun⟩
    | _ => cases hassigned
  · rw [setBy_of_ne hassigned]
    refine ⟨?_, ?_⟩
    · intro level hlevel
      rw [hbase] at hlevel
      exact h.atLeast_of_ne hassigned (hbefore.floor level hlevel)
    · intro under hwritten
      rw [hbase]
      exact hbefore.under under hwritten

end Operation

/-! ## §3  Sessions from their opening on -/

/-- A session that has just been opened: that of a root frame, or of a frame that is
called. -/
inductive JustOpened [Level L] : Session L → Prop
  | root (policy : Policy) (frame : String) : JustOpened ((Session.root policy).named frame)
  | call (caller : Session L) (callee : String) (levels : List L) :
      JustOpened (caller.call callee levels)

/-- A session whose arguments are at the level of its opening or above, and whose local `x`
was last set like this. -/
structure Tracked [Level L] (x : String) (s : Session L) (setBy : SetBy L) : Prop where
  nested : s.pc.Nested
  arguments : ∀ level ∈ s.arguments, s.pc.base ≤ level
  accords : setBy.Accords s x

variable [Level L] {x : String} {s s' : Session L} {setBy : SetBy L}
  {heap heap' : Heap L} {op : Operation L} {reply : Reply L}

theorem JustOpened.tracked [LawfulJoin L] (h : JustOpened s) (x : String) :
    Tracked x s .declaration where
  nested := by
    cases h with
    | root policy frame => exact ProgramCounter.nested_nil rfl
    | call caller callee levels => exact ProgramCounter.nested_nil rfl
  arguments := by
    cases h with
    | root policy frame => exact List.forall_mem_nil _
    | call caller callee levels =>
        intro level hlevel
        obtain ⟨passed, -, rfl⟩ := List.mem_map.1 hlevel
        exact right_le_join passed caller.pc.level
  accords := ⟨nofun, nofun⟩

theorem Tracked.succeeds [LawfulJoin L] (h : Tracked x s setBy)
    (hrule : op.Succeeds s heap reply s' heap') : Tracked x s' (op.setBy x s.pc setBy) where
  nested := hrule.nested h.nested
  arguments := by
    rw [hrule.arguments_eq, hrule.base_eq]
    exact h.arguments
  accords := hrule.accords h.nested h.arguments h.accords

theorem Tracked.perform [LawfulJoin L] (h : Tracked x s setBy) (op : Operation L)
    (heap : Heap L) :
    Tracked x (op.perform s heap).state.1
      (if (op.perform s heap).result.isOk then op.setBy x s.pc setBy else setBy) := by
  rcases op.succeeds_or_fails s heap with ⟨reply, s', heap', hrule⟩ | ⟨e, hfails⟩
  · obtain ⟨hresult, hstate⟩ := Operation.perform_of_succeeds hrule
    rw [hresult, hstate]
    exact h.succeeds hrule
  · obtain ⟨hresult, hstate⟩ := Operation.perform_of_fails hfails
    rw [hresult, hstate]
    exact h

/-- **Whatever happens to a session, its locals stay at the floor** of what has set them
last. -/
theorem Tracked.after [LawfulJoin L] (state : Session L × Heap L) (h : Tracked x state.1 setBy)
    (events : List (Event L)) :
    Tracked x (Event.after state events).1 (Event.setBy x state setBy events) := by
  induction events generalizing state setBy with
  | nil => exact h
  | cons event events ih =>
      cases event with
      | others heap => exact ih ((Event.others heap).apply state) h
      | own op => exact ih ((Event.own op).apply state) (h.perform op state.2)

/-! ## §4  Sinks -/

/-- A sink lets exactly the declared locals through that flow to it. -/
theorem checkSink_eq_ok {bound : L} :
    (s.checkSink x bound).result = .ok () ↔
      ∃ slot, s.locals.find? x = some slot ∧ slot.level ≤ bound := by
  unfold Session.checkSink
  cases hfound : s.locals.find? x with
  | none => simp [Locals.level_of_none hfound]
  | some slot =>
      rw [Locals.level_eq_ok.2 ⟨slot, hfound, rfl⟩]
      by_cases hbelow : slot.level ≤ bound
      · simp [hbelow, Outcome.ok]
      · simp [hbelow, Session.refuse]

/-- A sink below top lets exactly the declared locals through that are not at top. -/
theorem checkBelowTop_eq_ok :
    (s.checkBelowTop x).result = .ok () ↔
      ∃ slot, s.locals.find? x = some slot ∧ slot.level ≠ top := by
  unfold Session.checkBelowTop
  cases hfound : s.locals.find? x with
  | none => simp [Locals.level_of_none hfound]
  | some slot =>
      rw [Locals.level_eq_ok.2 ⟨slot, hfound, rfl⟩]
      by_cases htop : slot.level = top
      · simp [htop, Session.refuse]
      · simp [htop, Outcome.ok]

theorem Locals.AtLeast.le_of_checkSink [LawfulJoin L] {level bound : L}
    (h : s.locals.AtLeast x level) (hok : (s.checkSink x bound).result = .ok ()) :
    level ≤ bound := by
  obtain ⟨slot, hslot, hlevel⟩ := h
  obtain ⟨slot', hslot', hbelow⟩ := checkSink_eq_ok.1 hok
  obtain rfl : slot = slot' := Option.some.inj (hslot.symm.trans hslot')
  exact le_trans hlevel hbelow

theorem Locals.AtLeast.ne_top_of_checkBelowTop [LawfulLevel L] {level : L}
    (h : s.locals.AtLeast x level) (hok : (s.checkBelowTop x).result = .ok ()) : level ≠ top := by
  rintro rfl
  obtain ⟨slot, hslot, hlevel⟩ := h
  obtain ⟨slot', hslot', hbelow⟩ := checkBelowTop_eq_ok.1 hok
  obtain rfl : slot = slot' := Option.some.inj (hslot.symm.trans hslot')
  exact hbelow (le_antisymm (LawfulLevel.le_top _) hlevel)

/-- A local that was last written is at the level of every branch that was open then, or
above. -/
theorem Tracked.atLeast_branch [LawfulJoin L] {under : ProgramCounter L}
    (h : Tracked x s (.write under)) {scopes : List (Scope L)} (hscopes : scopes <:+ under.scopes) :
    s.locals.AtLeast x (s.pc.withScopes scopes).level := by
  obtain ⟨hnested, hbase⟩ := h.accords.under under rfl
  obtain ⟨slot, hslot, hlevel⟩ := h.accords.floor under.level rfl
  exact ⟨slot, hslot, le_trans (hnested.withScopes_le hbase hscopes) hlevel⟩

/-- **What a sink lets through.** In whatever state a session has got into since it was
opened, a sink lets a declared local through exactly if its level flows to the bound, and
the sink below top exactly if the level is not top. If the local was last set by a write,
then what is let through has the program counter of that write flow to the bound (not be
top), and so has it the program counter inside every branch that is open now and was open at
that write; this is the current program counter, if all scopes that are open now were. If the
local was last set by an argument, the program counter of the place where it was bound does
not count, only the one at which the frame was called. -/
theorem JustOpened.sinks [LawfulLevel L] {opening : Session L} (h : JustOpened opening)
    (heap : Heap L) (events : List (Event L)) (x : String) (bound : L) :
    let s := (Event.after (opening, heap) events).1
    let setBy := Event.setBy x (opening, heap) .declaration events
    ((s.checkSink x bound).result = .ok () ↔
        ∃ slot, s.locals.find? x = some slot ∧ slot.level ≤ bound) ∧
    ((s.checkBelowTop x).result = .ok () ↔
        ∃ slot, s.locals.find? x = some slot ∧ slot.level ≠ top) ∧
    (∀ under, setBy = .write under →
      ((s.checkSink x bound).result = .ok () →
        under.level ≤ bound ∧ ∀ scopes, scopes <:+ s.pc.scopes → scopes <:+ under.scopes →
          (s.pc.withScopes scopes).level ≤ bound) ∧
      ((s.checkBelowTop x).result = .ok () →
        under.level ≠ top ∧ ∀ scopes, scopes <:+ s.pc.scopes → scopes <:+ under.scopes →
          (s.pc.withScopes scopes).level ≠ top)) ∧
    (setBy = .argument →
      ((s.checkSink x bound).result = .ok () → s.pc.base ≤ bound) ∧
      ((s.checkBelowTop x).result = .ok () → s.pc.base ≠ top)) := by
  intro s setBy
  have htracked : Tracked x s setBy := Tracked.after (opening, heap) (h.tracked x) events
  refine ⟨checkSink_eq_ok, checkBelowTop_eq_ok, fun under hwritten => ?_, fun hbound => ?_⟩
  · rw [hwritten] at htracked
    have hpc : s.locals.AtLeast x under.level := htracked.accords.floor under.level rfl
    constructor
    · intro hok
      refine ⟨hpc.le_of_checkSink hok, fun scopes _ hopen => ?_⟩
      exact (htracked.atLeast_branch hopen).le_of_checkSink hok
    · intro hok
      refine ⟨hpc.ne_top_of_checkBelowTop hok, fun scopes _ hopen => ?_⟩
      exact (htracked.atLeast_branch hopen).ne_top_of_checkBelowTop hok
  · rw [hbound] at htracked
    have hbase : s.locals.AtLeast x s.pc.base := htracked.accords.floor s.pc.base rfl
    exact ⟨hbase.le_of_checkSink, hbase.ne_top_of_checkBelowTop⟩

section Witness

/-- In a frame that was called with a public argument, a local is declared, a confidential
branch is entered, another local is declared and assigned a constant in it, and a third one
bound to the argument. -/
def outputsInBranch : List (Event ThreeLevel) :=
  [.own (.declare "x"), .own (.enter ⟨"if"⟩ [.medium]), .own (.declare "y"),
    .own (.write "y" .low), .own (.bindArgument 0 "z")]

theorem sinks_outputsInBranch :
    let s := (Event.after ((Session.root {}).call "f" [ThreeLevel.low], .empty) outputsInBranch).1
    (s.checkSink "y" .medium).result = .ok () ∧ s.pc.level ≤ ThreeLevel.medium ∧
      (s.checkSink "y" .low).result ≠ .ok () ∧ (s.checkSink "x" .low).result = .ok () ∧
      (s.checkSink "z" .low).result = .ok () ∧ s.pc.base ≤ ThreeLevel.low := by
  intro s
  have hopened : JustOpened ((Session.root {}).call "f" [ThreeLevel.low]) :=
    .call (.root {}) "f" [ThreeLevel.low]
  have hwritten : Event.setBy "y" ((Session.root {}).call "f" [ThreeLevel.low], .empty) .declaration
      outputsInBranch = .write s.pc := by rfl
  have hbound : Event.setBy "z" ((Session.root {}).call "f" [ThreeLevel.low], .empty) .declaration
      outputsInBranch = .argument := by rfl
  have hmedium : (s.checkSink "y" .medium).result = .ok () := by rfl
  have hlow : (s.checkSink "z" .low).result = .ok () := by rfl
  obtain ⟨-, -, hflows, -⟩ := hopened.sinks .empty outputsInBranch "y" .medium
  obtain ⟨-, -, hpublic, -⟩ := hopened.sinks .empty outputsInBranch "y" .low
  obtain ⟨-, -, -, hbase⟩ := hopened.sinks .empty outputsInBranch "z" .low
  have hpc := ((hflows s.pc hwritten).1 hmedium).2 s.pc.scopes (List.suffix_refl _)
    (List.suffix_refl _)
  refine ⟨hmedium, hpc, fun hok => ?_, by rfl, hlow, (hbase hbound).1 hlow⟩
  exact absurd ((hpublic s.pc hwritten).1 hok).1 (by decide)

/-- A public local is declared before a secret branch is entered. -/
def publicBeforeBranch : List (Event TwoLevel) :=
  [.own (.declare "x"), .own (.enter ⟨"if"⟩ [.high])]

/-- **Sinks do not ask for the program counter.** Inside a branch on a secret, a local
from before the branch is let through to a public sink, and to one below top. -/
theorem not_forall_pc_le :
    (¬ ∀ (opening : Session TwoLevel) (heap : Heap TwoLevel) (events : List (Event TwoLevel))
        (x : String) (bound : TwoLevel), JustOpened opening →
      ((Event.after (opening, heap) events).1.checkSink x bound).result = .ok () →
      (Event.after (opening, heap) events).1.pc.level ≤ bound) ∧
    ¬ ∀ (opening : Session TwoLevel) (heap : Heap TwoLevel) (events : List (Event TwoLevel))
        (x : String), JustOpened opening →
      ((Event.after (opening, heap) events).1.checkBelowTop x).result = .ok () →
      (Event.after (opening, heap) events).1.pc.level ≠ top := by
  constructor
  · intro h
    have hpublic := h _ .empty publicBeforeBranch "x" .low (.root {} "main") (by rfl)
    exact absurd hpublic (by decide)
  · intro h
    exact h _ .empty publicBeforeBranch "x" (.root {} "main") (by rfl) (by rfl)

end Witness

end InfoFlow
