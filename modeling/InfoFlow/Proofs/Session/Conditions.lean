import InfoFlow.Proofs.ProgramCounter.PlainStack

/-!
# The conditions of the open branches

A session raises the condition of a branch to the program counter before it enters a scope
with it. So the innermost condition is the program counter itself, and both are what an
account of the history joins: the level at which the frame was called, and the levels that
the conditions of the open branches were computed from (`Records`). With what a plain stack
says of every sequence of calls, this settles the levels that the scopes keep
(`scopes_keep_levels`).
-/

namespace InfoFlow

open Level (join joinAll)
open LawfulJoin LawfulBottom

variable {L : Type} [Level L]

/-! ## §1  An account of the open branches -/

/-- The condition levels of the open branches, innermost first, after this operation of
session `s`. -/
def Operation.conditions (op : Operation L) (s : Session L) (before : List (List L)) :
    List (List L) :=
  match op with
  | .enter _ levels => levels :: before
  | .enterOn _ names =>
      match (s.readAll names).result with
      | .ok levels => levels :: before
      | .error _ => before
  | .exit _ => before.tail
  | _ => before

/-- The condition levels of the branches that are open after these events. -/
def Event.conditions (state : Session L × Heap L) (before : List (List L)) :
    List (Event L) → List (List L)
  | [] => before
  | .own op :: events =>
      conditions ((Event.own op).apply state)
        (if (op.perform state.1 state.2).result.isOk then op.conditions state.1 before
        else before) events
  | .others heap :: events => conditions ((Event.others heap).apply state) before events

/-- Each scope is at the join of the base and of the condition levels up to it. -/
inductive Records (base : L) : List (Scope L) → List (List L) → Prop
  | nil : Records base [] []
  | cons {scope : Scope L} {outer : List (Scope L)} {levels : List L} {conditions : List (List L)}
      (condition : scope.condition = joinAll (base :: (levels :: conditions).flatten))
      (inside : scope.inside = joinAll (base :: (levels :: conditions).flatten))
      (rest : Records base outer conditions) : Records base (scope :: outer) (levels :: conditions)

/-! ## §2  The account is right -/

section Lawful

variable [LawfulBottom L] {s s' : Session L} {heap heap' : Heap L} {op : Operation L}
  {reply : Reply L} {conditions : List (List L)}

theorem Records.level_eq {pc : ProgramCounter L} (h : Records pc.base pc.scopes conditions) :
    pc.level = joinAll (pc.base :: conditions.flatten) := by
  obtain ⟨scopes, base, maxDepth⟩ := pc
  cases h with
  | nil => exact (bottom_join base).symm
  | cons condition inside rest => exact inside

omit [LawfulBottom L] in
theorem Records.length_eq {base : L} {scopes : List (Scope L)}
    (h : Records base scopes conditions) : conditions.length = scopes.length := by
  induction h with
  | nil => rfl
  | cons condition inside rest ih => rw [List.length_cons, List.length_cons, ih]

omit [LawfulBottom L] in
theorem Records.innermost_eq {pc : ProgramCounter L} (h : Records pc.base pc.scopes conditions)
    (hopen : pc.isEmpty = false) : pc.innermost = pc.level := by
  obtain ⟨scopes, base, maxDepth⟩ := pc
  cases h with
  | nil => cases hopen
  | cons condition inside rest => exact condition.trans inside.symm

/-- A branch is entered at the join of the base and of all conditions. -/
theorem Records.enter {pc pc' : ProgramCounter L} (h : Records pc.base pc.scopes conditions)
    {levels : List L} {tag : Tag}
    (henter : pc.enter (join (joinAll levels) pc.level) tag = .ok pc') :
    Records pc'.base pc'.scopes (levels :: conditions) := by
  have hcondition : join (joinAll levels) pc.level =
      joinAll (pc.base :: (levels :: conditions).flatten) := by
    rw [h.level_eq]
    refine eq_of_forall_le_iff fun c => ?_
    simp only [join_le_iff, joinAll_le_iff, List.flatten_cons, List.forall_mem_cons,
      List.forall_mem_append]
    tauto
  have hinside : join pc.level (join (joinAll levels) pc.level) = join (joinAll levels) pc.level :=
    join_eq_right.2 (right_le_join _ _)
  obtain ⟨-, rfl⟩ := ProgramCounter.enter_eq_ok.1 henter
  exact .cons hcondition (hinside.trans hcondition) h

omit [LawfulBottom L] in
theorem Records.leave {pc pc' : ProgramCounter L} (h : Records pc.base pc.scopes conditions)
    {tag : Tag} (hleave : pc.leave tag = .ok pc') :
    Records pc'.base pc'.scopes conditions.tail := by
  obtain ⟨scope, outer, hscopes, -, rfl⟩ := ProgramCounter.leave_eq_ok.1 hleave
  rw [hscopes] at h
  cases h with
  | cons condition inside rest => exact rest

theorem Records.succeeds (h : Records s.pc.base s.pc.scopes conditions)
    (hrule : op.Succeeds s heap reply s' heap') :
    Records s'.pc.base s'.pc.scopes (op.conditions s conditions) := by
  cases hrule with
  | enter entered => exact h.enter entered
  | enterOn read entered =>
      simp only [Operation.conditions, read]
      exact h.enter entered
  | exit left => exact h.leave left
  | _ => exact h

/-- **Whatever happens to a session, the account keeps up with its scopes.** -/
theorem Records.after (state : Session L × Heap L)
    (h : Records state.1.pc.base state.1.pc.scopes conditions) (events : List (Event L)) :
    Records (Event.after state events).1.pc.base (Event.after state events).1.pc.scopes
      (Event.conditions state conditions events) := by
  induction events generalizing state conditions with
  | nil => exact h
  | cons event events ih =>
      cases event with
      | others heap => exact ih ((Event.others heap).apply state) h
      | own op =>
          refine ih ((Event.own op).apply state) ?_
          show Records (op.perform state.1 state.2).state.1.pc.base
            (op.perform state.1 state.2).state.1.pc.scopes _
          rcases op.succeeds_or_fails state.1 state.2 with ⟨reply, s', heap', hrule⟩ | ⟨e, hfails⟩
          · obtain ⟨hresult, hstate⟩ := Operation.perform_of_succeeds hrule
            rw [hresult, hstate]
            exact h.succeeds hrule
          · obtain ⟨hresult, hstate⟩ := Operation.perform_of_fails hfails
            rw [hresult, hstate]
            exact h

theorem Event.base_after (state : Session L × Heap L) (events : List (Event L)) :
    (Event.after state events).1.pc.base = state.1.pc.base := by
  induction events generalizing state with
  | nil => rfl
  | cons event events ih =>
      refine (ih (event.apply state)).trans ?_
      cases event with
      | others heap => rfl
      | own op =>
          show (op.perform state.1 state.2).state.1.pc.base = state.1.pc.base
          rcases Operation.state_cases op state.1 state.2 with hsame | ⟨reply, hrule⟩
          · rw [hsame]
          · exact hrule.base_eq

end Lawful

theorem JustOpened.scopes_eq_nil {s : Session L} (h : JustOpened s) : s.pc.scopes = [] := by
  cases h <;> rfl

/-! ## §3  What the scopes keep -/

/-- **The levels that the scopes keep are right.** After any calls, a program counter
answers the next one as a plain stack does that joins its levels each time, and has the
same level, innermost level, depth and tags. It is never below its base, and never below
what it was when a scope was entered, as long as this scope stays open. Whenever a scope
is left, one of the calls entered it, and the program counter is what it was before that
call. In a session, the innermost condition is the program counter while a branch is open,
and both are the join of the level at which the frame was called and all levels that the
conditions of the open branches were computed from. -/
theorem scopes_keep_levels [LawfulBottom L] :
    (∀ (base : L) (maxDepth : Option UInt64) (calls : List (ScopeCall L)),
      let start := ProgramCounter.start base maxDepth
      let pc := start.after calls
      LooksLike pc ((PlainStack.start base maxDepth).after calls) ∧
        base ≤ pc.level ∧
        (∀ before condition tag inside opened,
          calls = before ++ .enter condition tag :: inside →
          (start.after before).enter condition tag = .ok opened → opened.KeepsOpen inside →
          opened.level ≤ pc.level) ∧
        ∀ tag left, pc.leave tag = .ok left →
          (∃ before condition inside, calls = before ++ .enter condition tag :: inside ∧
            start.Enters before condition tag inside) ∧
          ∀ before condition tag' inside, calls = before ++ .enter condition tag' :: inside →
            start.Enters before condition tag' inside →
            tag' = tag ∧ left = start.after before) ∧
    ∀ opening : Session L, JustOpened opening → ∀ (heap : Heap L) (events : List (Event L)),
      let s := (Event.after (opening, heap) events).1
      let conditions := Event.conditions (opening, heap) [] events
      conditions.length = s.pc.depth ∧ (s.pc.isEmpty = false →
        s.pc.innermost = s.pc.level ∧
          s.pc.level = joinAll (opening.pc.base :: conditions.flatten)) := by
  refine ⟨fun base maxDepth calls => ⟨?_, ?_, ?_, ?_⟩, fun opening hopening heap events => ?_⟩
  · exact ProgramCounter.looksLike_after base maxDepth calls
  · exact ProgramCounter.base_le_level base maxDepth calls
  · rintro before condition tag inside opened rfl henter hkeeps
    rw [ProgramCounter.after_enter henter]
    exact hkeeps.extends.level_le
  · intro tag left hleave
    refine ⟨ProgramCounter.exists_enters_of_leave hleave, ?_⟩
    rintro before condition tag' inside rfl henters
    obtain ⟨htag, hleft⟩ := henters.leave hleave
    exact ⟨htag.symm, hleft⟩
  · have hnone : Records opening.pc.base opening.pc.scopes [] := by
      rw [hopening.scopes_eq_nil]
      exact .nil
    have hrecords := Records.after (opening, heap) hnone events
    have hlevel := hrecords.level_eq
    rw [Event.base_after] at hlevel
    refine ⟨hrecords.length_eq, fun hopen => ⟨?_, hlevel⟩⟩
    exact hrecords.innermost_eq hopen

section Witness

/-- The third scope is beyond a limit of two, and the tag that is left is not that of the
second. -/
def twoScopes : List (ScopeCall ThreeLevel) :=
  [.enter .medium ⟨"a"⟩, .enter .low ⟨"b"⟩, .enter .high ⟨"c"⟩, .leave ⟨"a"⟩]

/-- A branch on a confidential value, and in it one on a constant. -/
def twoBranches : List (Event ThreeLevel) :=
  [.own (.enter ⟨"a"⟩ [.low, .medium]), .own (.enter ⟨"b"⟩ []), .own (.exit ⟨"a"⟩)]

theorem scopes_keep_levels_twoScopes :
    let start := ProgramCounter.start ThreeLevel.low (some 2)
    let s := (Event.after ((Session.root {}).named "f", .empty) twoBranches).1
    (start.after twoScopes).openTags = [⟨"a"⟩, ⟨"b"⟩] ∧
      (start.after [.enter .medium ⟨"a"⟩]).level ≤ (start.after twoScopes).level ∧
      (start.after twoScopes).leave ⟨"b"⟩ = .ok (start.after [.enter .medium ⟨"a"⟩]) ∧
      s.pc.depth = 2 ∧ s.pc.innermost = s.pc.level ∧ s.pc.level = .medium := by
  intro start s
  obtain ⟨hcalls, hsession⟩ := scopes_keep_levels (L := ThreeLevel)
  obtain ⟨hlooks, -, hbelow, hleave⟩ := hcalls .low (some 2) twoScopes
  have hclosed : start.Enters [.enter .medium ⟨"a"⟩] .low ⟨"b"⟩
      [.enter .high ⟨"c"⟩, .leave ⟨"a"⟩] := ⟨_, rfl, by decide, by decide⟩
  have hleft : (start.after twoScopes).leave ⟨"b"⟩ = .ok (start.after [.enter .medium ⟨"a"⟩]) := rfl
  have hopened : JustOpened ((Session.root {}).named "f" : Session ThreeLevel) := .root {} "f"
  obtain ⟨hdepth, hopen⟩ := hsession _ hopened .empty twoBranches
  obtain ⟨hinnermost, hlevel⟩ := hopen rfl
  refine ⟨hlooks.openTags, ?_, ?_, hdepth.symm, hinnermost, hlevel⟩
  · exact hbelow [] .medium ⟨"a"⟩ _ _ rfl rfl (by decide)
  · obtain ⟨-, hbefore⟩ := (hleave ⟨"b"⟩ _ hleft).2 _ _ _ _ rfl hclosed
    exact hleft.trans (congrArg Except.ok hbefore)

end Witness

end InfoFlow
