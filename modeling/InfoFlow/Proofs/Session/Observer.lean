import InfoFlow.Proofs.Session.Reading
import InfoFlow.Proofs.Session.Step

/-!
# What an observer can tell of two sessions

An observer at level `l` tells two levels apart only if one of them flows to `l`.
Two sessions are `Similar` when they have the same open scopes, all of them in
sight of the observer, and their locals have labels that are `Alike`. Similar
sessions stay so when both carry out an action that is in sight. A session whose
program counter is out of sight changes no label that the observer can see.
-/

namespace InfoFlow

open Level (join joinAll bottom)
open LawfulJoin

variable {L : Type} [Level L]

/-! ## §1  Levels and labels -/

/-- Levels that an observer at `l` cannot tell apart: equal, or both out of sight. -/
def Alike (l a b : L) : Prop := a = b ∨ ¬ a ≤ l ∧ ¬ b ≤ l

theorem Alike.symm {l a b : L} (h : Alike l a b) : Alike l b a := by
  rcases h with rfl | ⟨ha, hb⟩
  · exact Or.inl rfl
  · exact Or.inr ⟨hb, ha⟩

theorem Alike.trans {l a b c : L} (h : Alike l a b) (h' : Alike l b c) : Alike l a c := by
  rcases h with rfl | ⟨ha, hb⟩
  · exact h'
  · rcases h' with rfl | ⟨-, hc⟩
    · exact Or.inr ⟨ha, hb⟩
    · exact Or.inr ⟨ha, hc⟩

theorem Alike.eq_of_le {l a b : L} (h : Alike l a b) (ha : a ≤ l) : a = b := by
  rcases h with heq | ⟨hnot, -⟩
  · exact heq
  · exact absurd ha hnot

theorem Alike.join [LawfulJoin L] {l a b a' b' : L} (h : Alike l a b) (h' : Alike l a' b') :
    Alike l (join a a') (join b b') := by
  rcases h with rfl | ⟨ha, hb⟩
  · rcases h' with rfl | ⟨ha', hb'⟩
    · exact Or.inl rfl
    · refine Or.inr ⟨fun hle => ha' ?_, fun hle => hb' ?_⟩
      · exact (join_le_iff.1 hle).2
      · exact (join_le_iff.1 hle).2
  · refine Or.inr ⟨fun hle => ha ?_, fun hle => hb ?_⟩
    · exact (join_le_iff.1 hle).1
    · exact (join_le_iff.1 hle).1

/-- The labels of one local in two sessions, as an observer sees them: declared in
neither, or in both under the same program counter, at levels that are alike. -/
inductive AlikeSlots (l : L) : Option (LocalLabel L) → Option (LocalLabel L) → Prop
  | undeclared : AlikeSlots l none none
  | declared {a b : LocalLabel L} (under : a.declaredUnder = b.declaredUnder)
      (low : a.declaredUnder ≤ l) (levels : Alike l a.level b.level) :
      AlikeSlots l (some a) (some b)

theorem AlikeSlots.symm {l : L} {a b : Option (LocalLabel L)} (h : AlikeSlots l a b) :
    AlikeSlots l b a := by
  cases h with
  | undeclared => exact .undeclared
  | declared under low levels => exact .declared under.symm (under ▸ low) levels.symm

/-- What a session out of sight does to a local leaves its labels alike. -/
theorem Operation.Succeeds.alikeSlots [LawfulJoin L] {s s' : Session L} {heap heap' : Heap L}
    {op : Operation L} {reply : Reply L} (h : op.Succeeds s heap reply s' heap') {l : L}
    (hpc : ¬ s.pc.level ≤ l) {x : String} (hrelabels : ¬ op.Relabels x)
    (hdeclares : ¬ op.Declares x) {o : Option (LocalLabel L)}
    (hx : AlikeSlots l o (s.locals.find? x)) : AlikeSlots l o (s'.locals.find? x) := by
  cases hslot : s.locals.find? x with
  | none =>
      rcases h.find?_cases_of_none hslot with hnone | ⟨hdeclared, -⟩
      · rw [hnone, ← hslot]
        exact hx
      · exact absurd hdeclared hdeclares
  | some slot =>
      obtain ⟨slot', hfound, hunder, hcases⟩ := h.find?_cases hslot
      rw [hfound]
      rw [hslot] at hx
      cases hx with
      | @declared a _ under low levels =>
          rcases hcases with rfl | hrelabelled | ⟨operand, -, hlevel, hadmitted⟩
          · exact .declared under low levels
          · exact absurd hrelabelled hrelabels
          · refine .declared (under.trans hunder.symm) low (levels.trans ?_)
            -- the local was declared in sight, so it existed before: it is not raised
            have hpre : s.PreExisting slot := by
              intro hflows
              rw [← under] at hflows
              exact hpc (le_trans hflows low)
            have hle := hadmitted hpre
            have hcommitted : ¬ join operand s.pc.level ≤ l := fun hflows =>
              hpc (join_le_iff.1 hflows).2
            refine Or.inr ⟨fun hflows => hcommitted (le_trans hle hflows), ?_⟩
            rw [hlevel]
            exact hcommitted

/-! ## §2  Actions in sight -/

namespace Operand

/-- Operands that are not on the heap. -/
def Plain : Operand L → Prop
  | .field _ _ => False
  | .element _ _ => False
  | _ => True

end Operand

namespace Action

/-- Actions on locals and scopes whose operands are not on the heap. -/
def Plain : Action L → Prop
  | declare _ => True
  | write _ operands => ∀ operand ∈ operands, operand.Plain
  | enter _ condition => ∀ operand ∈ condition, operand.Plain
  | exit _ => True
  | checkBelowTop _ => True
  | checkSink _ _ => True
  | label _ _ => True
  | _ => False

def Labels : Action L → Prop
  | label _ _ => True
  | _ => False

/-- The action names local `x`, or reads it as an operand. -/
def Mentions (x : String) : Action L → Prop
  | declare name => name = x
  | write name operands => name = x ∨ .local x ∈ operands
  | enter _ condition => .local x ∈ condition
  | checkBelowTop name => name = x
  | checkSink name _ => name = x
  | label name _ => name = x
  | _ => False

end Action

namespace Session

/-- Sessions that an observer at `l` cannot tell apart by the open scopes, nor by
any local but the `hidden` ones. All scopes are in sight. -/
structure Similar (l : L) (hidden : String → Prop) (s t : Session L) : Prop where
  base : s.pc.base = t.pc.base
  scopes : s.pc.scopes = t.pc.scopes
  base_le : s.pc.base ≤ l
  scopes_le : ∀ scope ∈ s.pc.scopes, scope.inside ≤ l
  locals : ∀ x, ¬ hidden x → AlikeSlots l (s.locals.find? x) (t.locals.find? x)

variable {l : L} {hidden : String → Prop} {s t s' t' : Session L}

theorem Similar.symm (h : Similar l hidden s t) : Similar l hidden t s where
  base := h.base.symm
  scopes := h.scopes.symm
  base_le := h.base ▸ h.base_le
  scopes_le := h.scopes ▸ h.scopes_le
  locals := fun x hx => (h.locals x hx).symm

theorem Similar.level_eq (h : Similar l hidden s t) : s.pc.level = t.pc.level := by
  unfold ProgramCounter.level
  rw [h.scopes, h.base]

theorem Similar.level_le (h : Similar l hidden s t) : s.pc.level ≤ l := by
  unfold ProgramCounter.level
  cases hscopes : s.pc.scopes with
  | nil => exact h.base_le
  | cons scope outer =>
      refine h.scopes_le scope ?_
      rw [hscopes]
      exact List.mem_cons_self

theorem Similar.readOperand (h : Similar l hidden s t) {operand : Operand L}
    (hplain : operand.Plain) (hseen : ∀ x, operand = .local x → ¬ hidden x) {heap heap' : Heap L}
    {a b : L} (ha : (s.readOperand heap operand).result = .ok a)
    (hb : (t.readOperand heap' operand).result = .ok b) : Alike l a b := by
  rw [Session.result_readOperand] at ha hb
  cases operand with
  | «local» name =>
      obtain ⟨slot, hslot, rfl⟩ := Locals.level_eq_ok.1 ha
      obtain ⟨slot', hslot', rfl⟩ := Locals.level_eq_ok.1 hb
      have halike := h.locals name (hseen name rfl)
      rw [hslot, hslot'] at halike
      cases halike with
      | declared under low levels => exact levels
  | field object name => exact hplain.elim
  | element array index => exact hplain.elim
  | constant =>
      cases ha
      cases hb
      exact Or.inl rfl
  | literal level =>
      cases ha
      cases hb
      exact Or.inl rfl

variable [LawfulJoin L]

theorem Similar.joinOperands (h : Similar l hidden s t) {operands : List (Operand L)}
    (hplain : ∀ operand ∈ operands, operand.Plain)
    (hseen : ∀ x, Operand.local x ∈ operands → ¬ hidden x) {heap heap' : Heap L} {a₀ b₀ a b : L}
    (h₀ : Alike l a₀ b₀) (ha : (s.joinOperands heap a₀ operands).result = .ok a)
    (hb : (t.joinOperands heap' b₀ operands).result = .ok b) : Alike l a b := by
  induction operands generalizing a₀ b₀ with
  | nil =>
      cases ha
      cases hb
      exact h₀
  | cons operand operands ih =>
      obtain ⟨read, hread, ha⟩ := Outcome.result_andThen_eq_ok.1 ha
      obtain ⟨read', hread', hb⟩ := Outcome.result_andThen_eq_ok.1 hb
      have hfirst : Alike l read read' := by
        refine h.readOperand (hplain operand List.mem_cons_self) ?_ hread hread'
        rintro x rfl
        exact hseen x List.mem_cons_self
      refine ih ?_ ?_ (h₀.join hfirst) ha hb
      · exact fun later hlater => hplain later (List.mem_cons_of_mem _ hlater)
      · exact fun x hx => hseen x (List.mem_cons_of_mem _ hx)

theorem Similar.operandLevel (h : Similar l hidden s t) {action : Action L}
    (hplain : action.Plain) (hseen : ∀ x, action.Mentions x → ¬ hidden x) {heap heap' : Heap L}
    {a b : L} (ha : (s.operandLevel heap action.operands).result = .ok a)
    (hb : (t.operandLevel heap' action.operands).result = .ok b) : Alike l a b := by
  refine h.joinOperands ?_ ?_ (Or.inl rfl) ha hb
  · intro operand hoperand
    cases action with
    | write name operands => exact hplain operand hoperand
    | enter tag condition => exact hplain operand hoperand
    | writeField object field operands => exact hplain.elim
    | writeElement array index operands => exact hplain.elim
    | _ => cases hoperand
  · intro x hx
    refine hseen x ?_
    cases action with
    | write name operands => exact Or.inr hx
    | enter tag condition => exact hx
    | writeField object field operands => exact hplain.elim
    | writeElement array index operands => exact hplain.elim
    | _ => cases hx

omit [LawfulJoin L] in
theorem Similar.withLocals (h : Similar l hidden s t) {a b : Locals L}
    (hab : ∀ x, ¬ hidden x → AlikeSlots l (a.find? x) (b.find? x)) :
    Similar l hidden { s with locals := a } { t with locals := b } where
  base := h.base
  scopes := h.scopes
  base_le := h.base_le
  scopes_le := h.scopes_le
  locals := hab

omit [LawfulJoin L] in
theorem Similar.put (h : Similar l hidden s t) {name : String} {a b : LocalLabel L}
    (hab : AlikeSlots l (some a) (some b)) :
    Similar l hidden { s with locals := s.locals.put name a }
      { t with locals := t.locals.put name b } := by
  refine h.withLocals ?_
  intro x hx
  rw [Locals.find?_put, Locals.find?_put]
  split
  · exact hab
  · exact h.locals x hx

omit [LawfulJoin L] in
theorem Similar.declare (h : Similar l hidden s t) (name : String) :
    Similar l hidden { s with locals := s.locals.declare name s.pc.level }
      { t with locals := t.locals.declare name t.pc.level } := by
  refine h.withLocals ?_
  intro x hx
  rw [Locals.find?_declare, Locals.find?_declare]
  split
  · rename_i hname
    subst hname
    have hslots := h.locals x hx
    generalize s.locals.find? x = o, t.locals.find? x = o' at hslots
    cases hslots with
    | undeclared => exact .declared h.level_eq h.level_le (Or.inl rfl)
    | declared under low levels => exact .declared under low levels
  · exact h.locals x hx

theorem Similar.enter (h : Similar l hidden s t) {a b : L} (hab : Alike l a b) {tag : Tag}
    {pc pc' : ProgramCounter L}
    (hs : s.pc.enter (join (joinAll [a]) s.pc.level) tag = .ok pc)
    (ht : t.pc.enter (join (joinAll [b]) t.pc.level) tag = .ok pc') (hlow : pc.level ≤ l) :
    Similar l hidden { s with pc } { t with pc := pc' } := by
  obtain ⟨-, rfl⟩ := ProgramCounter.enter_eq_ok.1 hs
  obtain ⟨-, rfl⟩ := ProgramCounter.enter_eq_ok.1 ht
  -- the level of the condition is in sight, so it is the same in both
  have hcondition : join s.pc.level (join (joinAll [a]) s.pc.level) ≤ l := hlow
  have ha : a ≤ l := (join_le_iff.1 (join_le_iff.1 (join_le_iff.1 hcondition).2).1).2
  obtain rfl := hab.eq_of_le ha
  refine ⟨h.base, ?_, h.base_le, ?_, h.locals⟩
  · show _ :: s.pc.scopes = _ :: t.pc.scopes
    rw [h.level_eq, h.scopes]
  · intro scope hscope
    rcases List.mem_cons.1 hscope with rfl | houter
    · exact hcondition
    · exact h.scopes_le scope houter

omit [LawfulJoin L] in
theorem Similar.leave (h : Similar l hidden s t) {tag : Tag} {pc pc' : ProgramCounter L}
    (hs : s.pc.leave tag = .ok pc) (ht : t.pc.leave tag = .ok pc') :
    Similar l hidden { s with pc } { t with pc := pc' } := by
  obtain ⟨scope, outer, hscopes, -, rfl⟩ := ProgramCounter.leave_eq_ok.1 hs
  obtain ⟨scope', outer', hscopes', -, rfl⟩ := ProgramCounter.leave_eq_ok.1 ht
  have hsame : scope :: outer = scope' :: outer' := by
    rw [← hscopes, ← hscopes', h.scopes]
  refine ⟨h.base, (List.cons.inj hsame).2, h.base_le, ?_, h.locals⟩
  intro inner hinner
  refine h.scopes_le inner ?_
  rw [hscopes]
  exact List.mem_cons_of_mem _ hinner

/-- **An action in sight keeps similar sessions similar.** -/
theorem Similar.act (h : Similar l hidden s t) {action : Action L} (hplain : action.Plain)
    (hseen : ∀ x, action.Mentions x → ¬ hidden x) {a b : L} (hab : Alike l a b)
    {heap₁ heap₁' heap₂ heap₂' : Heap L} {reply₁ reply₂ : Reply L}
    (hs : (action.operation a).Succeeds s heap₁ reply₁ s' heap₁')
    (ht : (action.operation b).Succeeds t heap₂ reply₂ t' heap₂')
    (hlow : action.Enters → s'.pc.level ≤ l) : Similar l hidden s' t' := by
  cases action with
  | declare name =>
      cases hs
      cases ht
      exact h.declare name
  | write name operands =>
      cases hs with
      | write found admitted =>
          cases ht with
          | write found' admitted' =>
              have hslots := h.locals name (hseen name (Or.inl rfl))
              rw [found, found'] at hslots
              cases hslots with
              | declared under low levels =>
                  refine h.put (.declared under low ?_)
                  rw [h.level_eq]
                  exact hab.join (Or.inl rfl)
  | enter tag condition =>
      cases hs with
      | enter entered =>
          cases ht with
          | enter entered' => exact h.enter hab entered entered' (hlow trivial)
  | exit tag =>
      cases hs with
      | exit left =>
          cases ht with
          | exit left' => exact h.leave left left'
  | checkBelowTop name =>
      cases hs
      cases ht
      exact h
  | checkSink name sink =>
      cases hs
      cases ht
      exact h
  | label name level =>
      cases hs with
      | label found =>
          cases ht with
          | label found' =>
              have hslots := h.locals name (hseen name rfl)
              rw [found, found'] at hslots
              cases hslots with
              | declared under low levels => exact h.put (.declared under low (Or.inl rfl))
  | _ => exact hplain.elim

end Session

end InfoFlow
