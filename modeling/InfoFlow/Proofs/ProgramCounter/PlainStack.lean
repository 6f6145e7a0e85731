import Mathlib.Data.List.Induction
import Mathlib.Data.List.Infix
import Mathlib.Tactic.Tauto
import InfoFlow.Proofs.Session.Sink

/-!
# The program counter and a plain stack

Every open scope keeps the level of the program counter inside it, so that the level is
read off the innermost one. A plain stack keeps tags and condition levels only, and joins
them all each time. Whatever scopes are entered and left, or not, for the limit or a wrong
tag, the two answer the same (`attempt_cached`): the program counter is at each moment what
a plain stack looks like with its levels written down (`PlainStack.cached`).

The scopes are those that were entered and not left since: to each belongs the call that
entered it (`Enters`), and leaving it brings the program counter back that was there
before this call.
-/

namespace InfoFlow

open Level (join joinAll bottom)
open LawfulJoin LawfulBottom

variable {L : Type}

/-! ## §1  Calls -/

/-- Something that is asked of a program counter. -/
inductive ScopeCall (L : Type) where
  | enter (condition : L) (tag : Tag)
  | leave (tag : Tag)
deriving DecidableEq, Repr

namespace ProgramCounter

variable [Level L]

def attempt (pc : ProgramCounter L) : ScopeCall L → Except Fault (ProgramCounter L)
  | .enter condition tag => pc.enter condition tag
  | .leave tag => pc.leave tag

/-- A call that fails changes nothing. -/
def next (pc : ProgramCounter L) (call : ScopeCall L) : ProgramCounter L :=
  (pc.attempt call).toOption.getD pc

def after (pc : ProgramCounter L) (calls : List (ScopeCall L)) : ProgramCounter L :=
  calls.foldl next pc

/-- The scopes of `pc` stay open during these calls. -/
def KeepsOpen (pc : ProgramCounter L) (calls : List (ScopeCall L)) : Prop :=
  ∀ done, done <+: calls → pc.depth ≤ (pc.after done).depth

instance (pc : ProgramCounter L) (calls : List (ScopeCall L)) : Decidable (pc.KeepsOpen calls) :=
  decidable_of_iff (∀ done ∈ calls.inits, pc.depth ≤ (pc.after done).depth) (by
    simp only [KeepsOpen, List.mem_inits])

theorem next_of_ok {pc pc' : ProgramCounter L} {call : ScopeCall L}
    (h : pc.attempt call = .ok pc') : pc.next call = pc' := by
  unfold next
  rw [h]
  rfl

theorem next_cases (pc : ProgramCounter L) (call : ScopeCall L) :
    pc.next call = pc ∨
      (∃ condition tag, call = .enter condition tag ∧ pc.enter condition tag = .ok (pc.next call)) ∨
      ∃ tag, call = .leave tag ∧ pc.leave tag = .ok (pc.next call) := by
  unfold next
  cases call with
  | enter condition tag =>
      cases hcall : pc.attempt (.enter condition tag) with
      | error e => exact Or.inl rfl
      | ok pc' => exact Or.inr (Or.inl ⟨condition, tag, rfl, hcall⟩)
  | leave tag =>
      cases hcall : pc.attempt (.leave tag) with
      | error e => exact Or.inl rfl
      | ok pc' => exact Or.inr (Or.inr ⟨tag, rfl, hcall⟩)

theorem after_concat (pc : ProgramCounter L) (calls : List (ScopeCall L)) (call : ScopeCall L) :
    pc.after (calls ++ [call]) = (pc.after calls).next call := by
  unfold after
  rw [List.foldl_append]
  rfl

theorem after_append (pc : ProgramCounter L) (done rest : List (ScopeCall L)) :
    pc.after (done ++ rest) = (pc.after done).after rest :=
  List.foldl_append

/-- Calls change nothing but the open scopes. -/
theorem after_eq_withScopes (pc : ProgramCounter L) (calls : List (ScopeCall L)) :
    pc.after calls = pc.withScopes (pc.after calls).scopes := by
  induction calls using List.reverseRecOn with
  | nil => rfl
  | append_singleton calls call ih =>
      rw [after_concat]
      rcases (pc.after calls).next_cases call with hsame | ⟨condition, tag, -, hpc⟩ | ⟨tag, -, hpc⟩
      · rw [hsame]
        exact ih
      · obtain ⟨-, hpc⟩ := enter_eq_ok.1 hpc
        rw [hpc, ih]
        rfl
      · obtain ⟨scope, outer, -, -, hpc⟩ := leave_eq_ok.1 hpc
        rw [hpc, ih]
        rfl

end ProgramCounter

/-! ## §2  A plain stack -/

/-- The tags and condition levels of the open scopes, innermost first. -/
structure PlainStack (L : Type) where
  entries : List (Tag × L)
  base : L
  maxDepth : Option UInt64

namespace PlainStack

def start (base : L) (maxDepth : Option UInt64) : PlainStack L := ⟨[], base, maxDepth⟩

def depth (stack : PlainStack L) : Nat := stack.entries.length

/-- The tags, outermost first. -/
def openTags (stack : PlainStack L) : List Tag := (stack.entries.map (·.1)).reverse

variable [Level L]

/-- The join of the base and of all levels on the stack. -/
def level (stack : PlainStack L) : L := joinAll (stack.base :: stack.entries.map (·.2))

def innermost (stack : PlainStack L) : L := (stack.entries.head?.map (·.2)).getD bottom

/-- Put an entry on top, unless there are as many as the limit says; take the top away,
if it has this tag. -/
def attempt (stack : PlainStack L) : ScopeCall L → Except Fault (PlainStack L)
  | .enter condition tag =>
      match stack.maxDepth with
      | none => .ok { stack with entries := (tag, condition) :: stack.entries }
      | some limit =>
          if stack.depth < limit.toNat then
            .ok { stack with entries := (tag, condition) :: stack.entries }
          else .error (.tooDeep limit)
  | .leave tag =>
      match stack.entries with
      | [] => .error (.wrongExit none tag)
      | (top, _) :: entries =>
          if top = tag then .ok { stack with entries } else .error (.wrongExit (some top) tag)

def next (stack : PlainStack L) (call : ScopeCall L) : PlainStack L :=
  (stack.attempt call).toOption.getD stack

def after (stack : PlainStack L) (calls : List (ScopeCall L)) : PlainStack L :=
  calls.foldl next stack

/-! ## §3  The levels written down -/

/-- Scopes with these tags and conditions, each with the level inside it. -/
def scopes (base : L) : List (Tag × L) → List (Scope L)
  | [] => []
  | (tag, condition) :: outer =>
      ⟨tag, condition, joinAll (base :: condition :: outer.map (·.2))⟩ :: scopes base outer

/-- The program counter with these entries. -/
def cached (stack : PlainStack L) : ProgramCounter L :=
  ⟨scopes stack.base stack.entries, stack.base, stack.maxDepth⟩

theorem map_tag_scopes (base : L) (entries : List (Tag × L)) :
    (scopes base entries).map (·.tag) = entries.map (·.1) := by
  induction entries with
  | nil => rfl
  | cons entry entries ih => rw [scopes, List.map_cons, List.map_cons, ih]

theorem length_scopes (base : L) (entries : List (Tag × L)) :
    (scopes base entries).length = entries.length := by
  have h := congrArg List.length (map_tag_scopes base entries)
  rwa [List.length_map, List.length_map] at h

theorem depth_cached (stack : PlainStack L) : stack.cached.depth = stack.depth :=
  length_scopes stack.base stack.entries

theorem openTags_cached (stack : PlainStack L) : stack.cached.openTags = stack.openTags := by
  unfold ProgramCounter.openTags openTags
  rw [List.map_reverse]
  exact congrArg List.reverse (map_tag_scopes stack.base stack.entries)

theorem innermost_cached (stack : PlainStack L) : stack.cached.innermost = stack.innermost := by
  obtain ⟨entries, base, maxDepth⟩ := stack
  cases entries <;> rfl

variable [LawfulBottom L]

theorem level_cached (stack : PlainStack L) : stack.cached.level = stack.level := by
  obtain ⟨entries, base, maxDepth⟩ := stack
  cases entries with
  | nil => exact (bottom_join base).symm
  | cons entry entries => rfl

theorem joinAll_cons_cons (base condition : L) (levels : List L) :
    joinAll (base :: condition :: levels) = join (joinAll (base :: levels)) condition :=
  eq_of_forall_le_iff fun c => by
    simp only [joinAll_le_iff, join_le_iff, List.forall_mem_cons]
    tauto

/-- **One call to the program counter is one call to the plain stack.** -/
theorem attempt_cached (stack : PlainStack L) (call : ScopeCall L) :
    stack.cached.attempt call = (stack.attempt call).map cached := by
  cases call with
  | enter condition tag =>
      have hinside : join stack.cached.level condition =
          joinAll (stack.base :: condition :: stack.entries.map (·.2)) := by
        rw [level_cached, level, joinAll_cons_cons]
      have hpushed : { stack.cached with scopes :=
          ⟨tag, condition, join stack.cached.level condition⟩ :: stack.cached.scopes } =
          cached { stack with entries := (tag, condition) :: stack.entries } := by
        rw [hinside]
        rfl
      have hlimit : stack.cached.limitReached? =
          stack.maxDepth.filter (·.toNat ≤ stack.depth) := by
        rw [← depth_cached]
        rfl
      simp only [ProgramCounter.attempt, ProgramCounter.enter, attempt, hlimit, hpushed]
      cases stack.maxDepth with
      | none => rfl
      | some limit =>
          by_cases hroom : stack.depth < limit.toNat
          · simp [Option.filter_some, hroom, Nat.not_le.2 hroom, Except.map]
          · simp [Option.filter_some, hroom, Nat.not_lt.1 hroom, Except.map]
  | leave tag =>
      obtain ⟨entries, base, maxDepth⟩ := stack
      cases entries with
      | nil => rfl
      | cons entry entries =>
          simp only [ProgramCounter.attempt, ProgramCounter.leave, attempt, cached, scopes]
          by_cases htag : entry.1 = tag
          · rw [if_pos htag, if_pos htag]
            rfl
          · rw [if_neg htag, if_neg htag]
            rfl

theorem next_cached (stack : PlainStack L) (call : ScopeCall L) :
    stack.cached.next call = (stack.next call).cached := by
  unfold ProgramCounter.next next
  rw [attempt_cached]
  cases stack.attempt call <;> rfl

theorem after_cached (stack : PlainStack L) (calls : List (ScopeCall L)) :
    stack.cached.after calls = (stack.after calls).cached := by
  induction calls generalizing stack with
  | nil => rfl
  | cons call calls ih =>
      show (stack.cached.next call).after calls = ((stack.next call).after calls).cached
      rw [next_cached, ih]

end PlainStack

/-- A program counter answers every call as a plain stack does, and looks like it. -/
structure LooksLike [Level L] (pc : ProgramCounter L) (stack : PlainStack L) : Prop where
  attempt : ∀ call, (pc.attempt call).map (·.level) = (stack.attempt call).map (·.level)
  level : pc.level = stack.level
  innermost : pc.innermost = stack.innermost
  depth : pc.depth = stack.depth
  openTags : pc.openTags = stack.openTags

theorem looksLike_cached [Level L] [LawfulBottom L] (stack : PlainStack L) :
    LooksLike stack.cached stack where
  attempt call := by
    rw [stack.attempt_cached]
    cases stack.attempt call with
    | error e => rfl
    | ok stack' => exact congrArg Except.ok stack'.level_cached
  level := stack.level_cached
  innermost := stack.innermost_cached
  depth := stack.depth_cached
  openTags := stack.openTags_cached

namespace ProgramCounter

variable [Level L]

/-! ## §4  Scopes and the calls that opened them -/

section Lawful

variable [LawfulJoin L]

theorem Extends.next {low pc : ProgramCounter L} {call : ScopeCall L} (h : Extends low pc)
    (hdepth : low.depth ≤ (pc.next call).depth) : Extends low (pc.next call) := by
  rcases pc.next_cases call with hsame | ⟨condition, tag, -, henter⟩ | ⟨tag, -, hleave⟩
  · rw [hsame]
    exact h
  · exact h.enter henter
  · exact h.leave hleave hdepth

/-- Calls that keep the scopes open only add to them. -/
theorem KeepsOpen.extends {low : ProgramCounter L} {calls : List (ScopeCall L)}
    (h : low.KeepsOpen calls) : Extends low (low.after calls) := by
  induction calls using List.reverseRecOn with
  | nil => exact Extends.refl low
  | append_singleton calls call ih =>
      have hbefore : low.KeepsOpen calls :=
        fun done hdone => h done (hdone.trans (List.prefix_append calls [call]))
      have hdepth := h (calls ++ [call]) (List.prefix_refl _)
      rw [after_concat] at hdepth ⊢
      exact (ih hbefore).next hdepth

/-- Once nothing else is open, the program counter is what it was. -/
theorem KeepsOpen.after_eq {low : ProgramCounter L} {calls : List (ScopeCall L)}
    (h : low.KeepsOpen calls) (hdepth : (low.after calls).depth = low.depth) :
    low.after calls = low := by
  obtain ⟨-, inner, hscopes, -⟩ := h.extends
  have hlength : inner.length + low.scopes.length = low.scopes.length := by
    rw [← List.length_append, ← hscopes]
    exact hdepth
  obtain rfl := List.eq_nil_of_length_eq_zero (Nat.add_eq_right.1 hlength)
  rw [after_eq_withScopes, hscopes]
  rfl

end Lawful

/-- After `before` a scope is entered, and after `inside` it is the innermost one that is
open, having stayed open. -/
def Enters (pc : ProgramCounter L) (before : List (ScopeCall L)) (condition : L) (tag : Tag)
    (inside : List (ScopeCall L)) : Prop :=
  ∃ opened, (pc.after before).enter condition tag = .ok opened ∧ opened.KeepsOpen inside ∧
    (opened.after inside).depth = opened.depth

theorem after_enter {pc opened : ProgramCounter L} {before : List (ScopeCall L)} {condition : L}
    {tag : Tag} (henter : (pc.after before).enter condition tag = .ok opened)
    (inside : List (ScopeCall L)) :
    pc.after (before ++ .enter condition tag :: inside) = opened.after inside := by
  have hnext : (pc.after before).next (.enter condition tag) = opened := next_of_ok henter
  rw [after_append, ← hnext]
  rfl

/-- Leaving a scope brings back the program counter that was there before it was entered. -/
theorem Enters.leave [LawfulJoin L] {pc left : ProgramCounter L}
    {before inside : List (ScopeCall L)} {condition : L} {tag tag' : Tag}
    (h : pc.Enters before condition tag inside)
    (hleave : (pc.after (before ++ .enter condition tag :: inside)).leave tag' = .ok left) :
    tag' = tag ∧ left = pc.after before := by
  obtain ⟨opened, henter, hkeeps, hdepth⟩ := h
  rw [after_enter henter, hkeeps.after_eq hdepth] at hleave
  obtain ⟨-, rfl⟩ := enter_eq_ok.1 henter
  obtain ⟨scope, outer, hscopes, htag, rfl⟩ := leave_eq_ok.1 hleave
  obtain ⟨rfl, rfl⟩ := List.cons.inj hscopes
  exact ⟨htag.symm, rfl⟩

/-- The open scopes that a call leaves were open before, but for one that it enters. -/
theorem suffix_next {pc : ProgramCounter L} {call : ScopeCall L} {scope : Scope L}
    {outer : List (Scope L)} (h : scope :: outer <:+ (pc.next call).scopes) :
    scope :: outer <:+ pc.scopes ∨
      call = .enter scope.condition scope.tag ∧ (pc.next call).scopes = scope :: outer ∧
        pc.enter scope.condition scope.tag = .ok (pc.next call) := by
  rcases pc.next_cases call with hsame | ⟨condition, tag, hcall, henter⟩ | ⟨tag, -, hleave⟩
  · rw [hsame] at h
    exact Or.inl h
  · obtain ⟨-, hpc⟩ := enter_eq_ok.1 henter
    rw [hpc] at h
    rcases List.suffix_cons_iff.1 h with heq | h
    · obtain ⟨rfl, rfl⟩ := List.cons.inj heq
      exact Or.inr ⟨hcall, by rw [hpc], henter⟩
    · exact Or.inl h
  · obtain ⟨top, rest, hscopes, -, hpc⟩ := leave_eq_ok.1 hleave
    rw [hpc] at h
    rw [hscopes]
    exact Or.inl (h.trans (List.suffix_cons top rest))

/-- **Every open scope was entered by one of the calls** and has stayed open since. -/
theorem exists_enter_of_suffix (base : L) (maxDepth : Option UInt64)
    (calls : List (ScopeCall L)) {scope : Scope L} {outer : List (Scope L)}
    (h : scope :: outer <:+ ((start base maxDepth).after calls).scopes) :
    ∃ before inside opened, calls = before ++ .enter scope.condition scope.tag :: inside ∧
      ((start base maxDepth).after before).enter scope.condition scope.tag = .ok opened ∧
      opened.scopes = scope :: outer ∧ opened.KeepsOpen inside := by
  induction calls using List.reverseRecOn with
  | nil => cases List.eq_nil_of_suffix_nil h
  | append_singleton calls call ih =>
      have hdepth := h.length_le
      rw [after_concat] at h
      rcases suffix_next h with h | ⟨rfl, hopened, henter⟩
      · obtain ⟨before, inside, opened, rfl, henter, hopened, hkeeps⟩ := ih h
        refine ⟨before, inside ++ [call], opened, by simp, henter, hopened, ?_⟩
        intro done hdone
        rcases List.prefix_concat_iff.1 hdone with rfl | hdone
        · rw [List.append_assoc, List.cons_append, after_enter henter] at hdepth
          unfold depth
          rw [hopened]
          exact hdepth
        · exact hkeeps done hdone
      · refine ⟨calls, [], _, rfl, henter, hopened, fun done hdone => ?_⟩
        obtain rfl := List.prefix_nil.1 hdone
        exact Nat.le_refl _

/-! ## §5  A program counter from its start on -/

variable (base : L) (maxDepth : Option UInt64) (calls : List (ScopeCall L))

theorem looksLike_after [LawfulBottom L] :
    LooksLike ((start base maxDepth).after calls)
      ((PlainStack.start base maxDepth).after calls) := by
  have hstart : start base maxDepth = (PlainStack.start base maxDepth).cached := rfl
  rw [hstart, PlainStack.after_cached]
  exact looksLike_cached _

theorem base_le_level [LawfulJoin L] : base ≤ ((start base maxDepth).after calls).level := by
  have hkeeps : (start base maxDepth).KeepsOpen calls := fun _ _ => Nat.zero_le _
  exact hkeeps.extends.level_le

variable {base maxDepth calls}

/-- What is left is what one of the calls entered. -/
theorem exists_enters_of_leave {tag : Tag} {left : ProgramCounter L}
    (hleave : ((start base maxDepth).after calls).leave tag = .ok left) :
    ∃ before condition inside, calls = before ++ .enter condition tag :: inside ∧
      (start base maxDepth).Enters before condition tag inside := by
  obtain ⟨scope, outer, hscopes, rfl, -⟩ := leave_eq_ok.1 hleave
  have hopen : scope :: outer <:+ ((start base maxDepth).after calls).scopes := by
    rw [hscopes]
  obtain ⟨before, inside, opened, rfl, henter, hopened, hkeeps⟩ :=
    exists_enter_of_suffix base maxDepth calls hopen
  refine ⟨before, scope.condition, inside, rfl, opened, henter, hkeeps, ?_⟩
  rw [← after_enter henter, depth, depth, hscopes, hopened]

end ProgramCounter

end InfoFlow
