import InfoFlow.Proofs.Session.Reading
import InfoFlow.Proofs.Session.Sink

/-!
# Scopes that change nothing

Of the program counter most operations see nothing but its level (`SeesLevel`); they do the
same at another program counter of this level. A scope is at the level of the program
counter around it if its condition flows there. Such a scope may stand anywhere among the
open scopes: as long as it is not left, and while no scope around it is, a session does the
same with it and without it (`Buried`).
-/

namespace InfoFlow

open Level (join joinAll bottom)
open LawfulJoin LawfulBottom

variable {L : Type}

/-! ## §1  The level of the program counter -/

namespace Session

/-- The same session at another program counter. -/
def withPc (s : Session L) (pc : ProgramCounter L) : Session L := { s with pc }

variable [Level L]

theorem joinOperands_withPc (s : Session L) (pc : ProgramCounter L) (heap : Heap L) (level : L)
    (operands : List (Operand L)) :
    ((s.withPc pc).joinOperands heap level operands).result =
      (s.joinOperands heap level operands).result :=
  joinOperands_congr (s := s) (t := s.withPc pc) rfl heap level operands

theorem argumentLevels_withPc (s : Session L) (pc : ProgramCounter L) (heap : Heap L)
    (arguments : List (Operand L)) :
    ((s.withPc pc).argumentLevels heap arguments).result =
      (s.argumentLevels heap arguments).result :=
  argumentLevels_congr (s := s) (t := s.withPc pc) rfl heap arguments

end Session

namespace Operation

/-- Operations that see of the program counter nothing but its level. -/
def SeesLevel : Operation L → Prop
  | enter _ _ => False
  | enterOn _ _ => False
  | exit _ => False
  | checkClose => False
  | _ => True

variable [Level L] {s s' : Session L} {heap heap' : Heap L} {op : Operation L} {reply : Reply L}
  {pc : ProgramCounter L} {e : Fault}

/-- **What succeeds at one program counter succeeds at every one of the same level**, with the
same answer, and leaves the same. -/
theorem Succeeds.withPc (h : Succeeds s heap op reply s' heap') (hop : op.SeesLevel)
    (hpc : pc.level = s.pc.level) :
    Succeeds (s.withPc pc) heap op reply (s'.withPc pc) heap' := by
  have hlevel : (s.withPc pc).pc.level = s.pc.level := hpc
  cases h with
  | declare name =>
      have h : Succeeds (s.withPc pc) heap _ _ _ _ := .declare name
      rw [hlevel] at h
      exact h
  | read found => exact .read found
  | @write name operand slot found admitted =>
      unfold Session.PreExisting at admitted
      rw [← hlevel] at admitted ⊢
      exact .write found admitted
  | label found => exact .label found
  | trackObject id => exact .trackObject id
  | trackField id field => exact .trackField id field
  | trackArray id length => exact .trackArray id length
  | newObject => exact .newObject
  | newArray length => exact .newArray length
  | readField found => exact .readField found
  | readElement found => exact .readElement found
  | writeField set =>
      rw [← hlevel] at set ⊢
      exact .writeField set
  | writeElement set =>
      rw [← hlevel] at set ⊢
      exact .writeElement set
  | labelField set => exact .labelField set
  | enter entered => exact hop.elim
  | enterOn read entered => exact hop.elim
  | exit left => exact hop.elim
  | checkBelowTop found below => exact .checkBelowTop found below
  | checkSink found below => exact .checkSink found below
  | bindArgument passed found =>
      rw [← hlevel] at found ⊢
      exact .bindArgument passed found
  | returnLocal found =>
      rw [← hlevel]
      exact .returnLocal found
  | returnConstant =>
      rw [← hlevel]
      exact .returnConstant
  | checkClose balanced => exact hop.elim

/-- What fails at one program counter fails in the same way at every one of the same level. -/
theorem Fails.withPc (h : Fails s heap op e) (hop : op.SeesLevel) (hpc : pc.level = s.pc.level) :
    Fails (s.withPc pc) heap op e := by
  have hlevel : (s.withPc pc).pc.level = s.pc.level := hpc
  cases h with
  | undeclared needs absent => exact .undeclared needs absent
  | unregistered slot absent strict => exact .unregistered slot absent strict
  | write found preExisting raised =>
      unfold Session.PreExisting at preExisting
      rw [← hlevel] at preExisting raised ⊢
      exact .write found preExisting raised
  | checkBelowTop found top => exact .checkBelowTop found top
  | checkSink found above => exact .checkSink found above
  | enter full => exact hop.elim
  | unread unread => exact hop.elim
  | enterOn read full => exact hop.elim
  | exit left => exact hop.elim
  | bindArgument missing => exact .bindArgument missing
  | checkClose unbalanced => exact hop.elim

/-- An operation that sees only the level of the program counter does not change it. -/
theorem Succeeds.pc_eq_of_seesLevel (h : Succeeds s heap op reply s' heap') (hop : op.SeesLevel) :
    s'.pc = s.pc := by
  cases h with
  | enter entered => exact hop.elim
  | enterOn read entered => exact hop.elim
  | exit left => exact hop.elim
  | _ => rfl

end Operation

/-! ## §2  One scope more -/

namespace ProgramCounter

/-- `pc'` is `pc` with one scope more: `scope`, which stands directly inside the scopes `outer`
and is at their level. The scopes inside it have these tags, the innermost first. -/
structure Buried (scope : Scope L) (outer : List (Scope L)) (tags : List Tag)
    (pc pc' : ProgramCounter L) : Prop where
  inside_eq : scope.inside = (pc.withScopes outer).level
  unlimited : pc.maxDepth = none
  scopes : ∃ inner, inner.map (·.tag) = tags ∧ pc.scopes = inner ++ outer ∧
    pc' = pc.withScopes (inner ++ scope :: outer)

variable {scope : Scope L} {outer : List (Scope L)} {tags : List Tag} {tag : Tag}
  {pc pc' after : ProgramCounter L} {condition : L}

theorem limitReached?_of_unlimited (h : pc.maxDepth = none) : pc.limitReached? = none := by
  unfold limitReached?
  rw [h]
  rfl

/-- The program counter is at the same level with the scope and without it. -/
theorem Buried.level_eq (h : Buried scope outer tags pc pc') : pc'.level = pc.level := by
  obtain ⟨inner, -, hscopes, rfl⟩ := h.scopes
  have hpc : pc.level = (pc.withScopes (inner ++ outer)).level := by
    rw [← hscopes]
    rfl
  rw [hpc]
  cases inner with
  | nil => exact h.inside_eq
  | cons first inner => rfl

/-- When the scopes inside it have been left, the scope can be left, too. -/
theorem Buried.leave_scope (h : Buried scope outer [] pc pc') : pc'.leave scope.tag = .ok pc := by
  obtain ⟨inner, htags, hscopes, rfl⟩ := h.scopes
  obtain rfl : inner = [] := List.map_eq_nil_iff.1 htags
  have hpc : pc = pc.withScopes outer := by
    rw [← show pc.scopes = outer from hscopes]
    rfl
  exact leave_eq_ok.2 ⟨scope, outer, rfl, rfl, hpc⟩

/-- Scopes inside it are left with it and without it. -/
theorem Buried.leave (h : Buried scope outer (tag :: tags) pc pc') :
    ∃ after after', pc.leave tag = .ok after ∧ pc'.leave tag = .ok after' ∧
      Buried scope outer tags after after' := by
  obtain ⟨inner, htags, hscopes, rfl⟩ := h.scopes
  obtain ⟨first, inner, rfl, rfl, rfl⟩ := List.map_eq_cons_iff.1 htags
  refine ⟨pc.withScopes (inner ++ outer), pc.withScopes (inner ++ scope :: outer), ?_, ?_, ?_⟩
  · exact leave_eq_ok.2 ⟨first, inner ++ outer, hscopes, rfl, rfl⟩
  · exact leave_eq_ok.2 ⟨first, inner ++ scope :: outer, rfl, rfl, rfl⟩
  · exact ⟨h.inside_eq, h.unlimited, inner, rfl, rfl, rfl⟩

variable [Level L]

/-- Scopes are entered inside it as they are without it. -/
theorem Buried.enter (h : Buried scope outer tags pc pc')
    (henter : pc.enter condition tag = .ok after) :
    ∃ after', pc'.enter condition tag = .ok after' ∧
      Buried scope outer (tag :: tags) after after' := by
  obtain ⟨-, rfl⟩ := enter_eq_ok.1 henter
  have hlevel := h.level_eq
  obtain ⟨inner, rfl, hscopes, rfl⟩ := h.scopes
  have hlimit : (pc.withScopes (inner ++ scope :: outer)).limitReached? = none :=
    limitReached?_of_unlimited h.unlimited
  refine ⟨_, enter_eq_ok.2 ⟨hlimit, rfl⟩, h.inside_eq, h.unlimited,
    ⟨tag, condition, join pc.level condition⟩ :: inner, rfl, ?_, ?_⟩
  · rw [hscopes]
    rfl
  · rw [hlevel]
    rfl

/-- A condition that flows to the program counter opens such a scope. -/
theorem exists_buried [LawfulJoin L] (h : pc.maxDepth = none) (hpublic : condition ≤ pc.level)
    (tag : Tag) :
    ∃ scope pc', scope.tag = tag ∧ pc.enter condition tag = .ok pc' ∧
      Buried scope pc.scopes [] pc pc' := by
  have hlimit := limitReached?_of_unlimited h
  have hinside : join pc.level condition = pc.level := join_eq_left.2 hpublic
  exact ⟨⟨tag, condition, join pc.level condition⟩, _, rfl, enter_eq_ok.2 ⟨hlimit, rfl⟩,
    hinside, h, [], rfl, rfl, rfl⟩

end ProgramCounter

/-! ## §3  Operations inside it -/

namespace Operation

open ProgramCounter (Buried)

variable [Level L] {s s' : Session L} {heap heap' : Heap L} {op : Operation L} {reply : Reply L}
  {scope : Scope L} {outer : List (Scope L)} {tags : List Tag} {tag : Tag} {pc : ProgramCounter L}

theorem Succeeds.buried_of_seesLevel (h : Succeeds s heap op reply s' heap') (hop : op.SeesLevel)
    (hpc : Buried scope outer tags s.pc pc) :
    Succeeds (s.withPc pc) heap op reply (s'.withPc pc) heap' ∧
      Buried scope outer tags s'.pc pc := by
  refine ⟨h.withPc hop hpc.level_eq, ?_⟩
  rw [h.pc_eq_of_seesLevel hop]
  exact hpc

theorem Succeeds.buried_enter {condition : List L}
    (h : Succeeds s heap (.enter tag condition) reply s' heap')
    (hpc : Buried scope outer tags s.pc pc) :
    ∃ reply' pc', Succeeds (s.withPc pc) heap (.enter tag condition) reply' (s'.withPc pc') heap' ∧
      Buried scope outer (tag :: tags) s'.pc pc' := by
  cases h with
  | enter entered =>
      obtain ⟨pc', hentered, hburied⟩ := hpc.enter entered
      rw [← hpc.level_eq] at hentered
      exact ⟨_, pc', .enter hentered, hburied⟩

theorem Succeeds.buried_exit (h : Succeeds s heap (.exit tag) reply s' heap')
    (hpc : Buried scope outer (tag :: tags) s.pc pc) :
    ∃ reply' pc', Succeeds (s.withPc pc) heap (.exit tag) reply' (s'.withPc pc') heap' ∧
      Buried scope outer tags s'.pc pc' := by
  cases h with
  | exit left =>
      obtain ⟨after, after', hleft, hleft', hburied⟩ := hpc.leave
      rw [hleft] at left
      cases left
      exact ⟨_, after', .exit hleft', hburied⟩

theorem not_fails_enter {condition : List L} {e : Fault} (h : s.pc.maxDepth = none) :
    ¬ Fails s heap (.enter tag condition) e := by
  intro hfails
  cases hfails with
  | undeclared needs absent => cases needs
  | unregistered slot absent strict => cases slot
  | enter full =>
      rw [ProgramCounter.limitReached?_of_unlimited h] at full
      cases full

theorem not_fails_exit {e : Fault} (h : Buried scope outer (tag :: tags) s.pc pc) :
    ¬ Fails s heap (.exit tag) e := by
  intro hfails
  cases hfails with
  | undeclared needs absent => cases needs
  | unregistered slot absent strict => cases slot
  | exit left =>
      obtain ⟨after, after', hleft, -, -⟩ := h.leave
      rw [hleft] at left
      cases left

end Operation

end InfoFlow
