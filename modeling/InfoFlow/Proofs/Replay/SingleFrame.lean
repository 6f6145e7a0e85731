import InfoFlow.Proofs.Replay.Rules
import InfoFlow.Proofs.Session.Step

/-!
# Traces of one frame

A trace of a single frame is a list of actions. What is `Nested` in it leaves
every branch that it enters, and therefore ends with the program counter it
began with. From any point on, a trace that succeeds either stays in the
innermost branch or leaves it after something nested (`leaves_or_stays`).
-/

namespace InfoFlow

variable {L : Type}

/-! ## §1  Actions one after the other -/

namespace Action

/-- The actions of a frame as the steps of a trace. -/
def steps (frame : String) (actions : List (Action L)) : List (Step L) :=
  actions.map fun act => ⟨frame, .action act⟩

/-- Actions in which every scope that is entered is left. -/
inductive Nested : List (Action L) → Prop
  | nil : Nested []
  | cons {act : Action L} {rest : List (Action L)} (enters : ¬ act.Enters) (exits : ¬ act.Exits)
      (nested : Nested rest) : Nested (act :: rest)
  | scope {tag : Tag} {condition : List (Operand L)} {inner rest : List (Action L)}
      (inside : Nested inner) (nested : Nested rest) :
      Nested (.enter tag condition :: inner ++ .exit tag :: rest)

end Action

open InfoFlow.Action (Nested)

namespace Replay

variable [Level L]

def act (r : Replay L) (frame : String) (index : Nat) (action : Action L) : Replay L :=
  (r.apply index ⟨frame, .action action⟩).state

def actAll (r : Replay L) (frame : String) (index : Nat) (actions : List (Action L)) : Replay L :=
  r.after index (Action.steps frame actions)

variable {r : Replay L} {frame : String} {index : Nat}

/-- An action that succeeds follows the rule of its operation, on the session of
its frame. -/
theorem succeeds_of_apply {action : Action L}
    (h : (r.apply index ⟨frame, .action action⟩).result = .ok ()) :
    ∃ level reply heap',
      ((r.current frame).operandLevel r.heap action.operands).result = .ok level ∧
      (action.operation level).Succeeds (r.current frame) r.heap reply
        ((r.act frame index action).current frame) heap' := by
  have hdoes := does_of_ok h
  unfold act
  generalize (r.apply index ⟨frame, .action action⟩).state = r' at hdoes
  cases hdoes with
  | @action _ _ s s' r₁ level reply heap' acts operands rule =>
      have hcurrent : ({ r₁.setSession frame s' with heap := heap' } : Replay L).current frame =
          s' := by
        show ((r₁.setSession frame s').frames[frame]?).getD _ = s'
        rw [frames_setSession, if_pos rfl, Option.getD_some]
      rw [acts.current_eq, ← acts.heap_eq, hcurrent]
      exact ⟨level, reply, heap', operands, rule⟩

theorem actAll_append (r : Replay L) (frame : String) (index : Nat) (done rest : List (Action L)) :
    r.actAll frame index (done ++ rest) =
      (r.actAll frame index done).actAll frame (index + done.length) rest := by
  unfold actAll Action.steps
  rw [List.map_append, after_append, List.length_map]

theorem clean_steps_append {done rest : List (Action L)} :
    r.Clean index (Action.steps frame (done ++ rest)) ↔
      r.Clean index (Action.steps frame done) ∧
        (r.actAll frame index done).Clean (index + done.length) (Action.steps frame rest) := by
  unfold actAll Action.steps
  rw [List.map_append, clean_append, List.length_map]

/-! ## §2  Branches -/

/-- After a branch: its entry, what happens inside, its exit. -/
def afterBranch (r : Replay L) (frame : String) (index : Nat) (tag : Tag)
    (condition : List (Operand L)) (body : List (Action L)) : Replay L :=
  ((r.act frame index (.enter tag condition)).actAll frame (index + 1) body).act frame
    (index + 1 + body.length) (.exit tag)

theorem actAll_branch (r : Replay L) (frame : String) (index : Nat) (tag : Tag)
    (condition : List (Operand L)) (body rest : List (Action L)) :
    r.actAll frame index (.enter tag condition :: body ++ .exit tag :: rest) =
      (r.afterBranch frame index tag condition body).actAll frame (index + 1 + body.length + 1)
        rest := by
  show (r.act frame index (.enter tag condition)).actAll frame (index + 1)
    (body ++ .exit tag :: rest) = _
  rw [actAll_append]
  rfl

theorem clean_branch {tag : Tag} {condition : List (Operand L)} {body rest : List (Action L)} :
    r.Clean index (Action.steps frame (.enter tag condition :: body ++ .exit tag :: rest)) ↔
      (r.apply index ⟨frame, .action (.enter tag condition)⟩).result = .ok () ∧
      (r.act frame index (.enter tag condition)).Clean (index + 1) (Action.steps frame body) ∧
      (((r.act frame index (.enter tag condition)).actAll frame (index + 1) body).apply
        (index + 1 + body.length) ⟨frame, .action (.exit tag)⟩).result = .ok () ∧
      (r.afterBranch frame index tag condition body).Clean (index + 1 + body.length + 1)
        (Action.steps frame rest) := by
  show _ ∧ (r.act frame index (.enter tag condition)).Clean (index + 1)
    (Action.steps frame (body ++ .exit tag :: rest)) ↔ _
  rw [clean_steps_append]
  rfl

theorem pc_eq_of_nested {body : List (Action L)} (hnested : Nested body)
    (hclean : r.Clean index (Action.steps frame body)) :
    ((r.actAll frame index body).current frame).pc = (r.current frame).pc := by
  induction hnested generalizing r index with
  | nil => rfl
  | @cons action rest henters hexits nested ih =>
      obtain ⟨hfirst, hrest⟩ := hclean
      obtain ⟨level, reply, heap', -, hrule⟩ := succeeds_of_apply hfirst
      exact (ih hrest).trans (Action.pc_eq_of_succeeds henters hexits hrule)
  | @scope tag condition inner rest inside nested ihInside ihRest =>
      obtain ⟨henter, hinner, hexit, hrest⟩ := clean_branch.1 hclean
      obtain ⟨level, reply, heap', -, hentered⟩ := succeeds_of_apply henter
      obtain ⟨level', reply', heap'', -, hleft⟩ := succeeds_of_apply hexit
      rw [actAll_branch]
      exact (ihRest hrest).trans (hentered.pc_eq_of_scope (ihInside hinner) hleft).2

/-- The exit after something nested leaves the branch that was entered before it,
and gives back its program counter. -/
theorem exit_of_nested {tag tag' : Tag} {condition : List (Operand L)}
    {body rest : List (Action L)} (hnested : Nested body)
    (hclean : r.Clean index (Action.steps frame
      (.enter tag condition :: body ++ .exit tag' :: rest))) :
    tag' = tag ∧
      ((((r.act frame index (.enter tag condition)).actAll frame (index + 1) body).act frame
        (index + 1 + body.length) (.exit tag')).current frame).pc = (r.current frame).pc := by
  obtain ⟨henter, hinside⟩ := hclean
  obtain ⟨hbody, hexit, -⟩ := clean_steps_append.1 hinside
  obtain ⟨level, reply, heap', -, hentered⟩ := succeeds_of_apply henter
  obtain ⟨level', reply', heap'', -, hleft⟩ := succeeds_of_apply hexit
  exact hentered.pc_eq_of_scope (pc_eq_of_nested hnested hbody) hleft

/-- From any point on, a trace that succeeds leaves the innermost branch after
something nested, or all scopes stay open to its end. -/
theorem leaves_or_stays {actions : List (Action L)}
    (hclean : r.Clean index (Action.steps frame actions)) :
    (∃ body tag rest, actions = body ++ .exit tag :: rest ∧ Nested body) ∨
      ∃ inner, ((r.actAll frame index actions).current frame).pc.scopes =
        inner ++ (r.current frame).pc.scopes := by
  induction hlength : actions.length using Nat.strongRecOn generalizing r index actions with
  | ind n ih =>
      cases actions with
      | nil => exact Or.inr ⟨[], rfl⟩
      | cons action rest =>
          rw [List.length_cons] at hlength
          have hrest : rest.length < n := by omega
          have hcleanRest := hclean.2
          obtain ⟨level, reply, heap', -, hrule⟩ := succeeds_of_apply hclean.1
          rcases action.scope_cases with ⟨tag, condition, rfl⟩ | ⟨tag, rfl⟩ | ⟨henters, hexits⟩
          · rcases ih _ hrest hcleanRest rfl with
              ⟨body, tag', later, rfl, hnested⟩ | ⟨inner, hinner⟩
            · -- this branch is left again: go on after it
              obtain ⟨rfl, hpc⟩ := exit_of_nested hnested hclean
              have hshorter : later.length < n := by
                rw [List.length_append, List.length_cons] at hrest
                omega
              rcases ih _ hshorter (clean_branch.1 hclean).2.2.2 rfl with
                ⟨body', tag'', last, rfl, hnested'⟩ | ⟨inner, hinner⟩
              · refine Or.inl ⟨.enter tag' condition :: body ++ .exit tag' :: body', tag'', last, ?_,
                  .scope hnested hnested'⟩
                simp
              · refine Or.inr ⟨inner, ?_⟩
                show ((r.actAll frame index
                  (.enter tag' condition :: body ++ .exit tag' :: later)).current frame).pc.scopes = _
                rw [actAll_branch, hinner]
                exact congrArg (inner ++ ·.scopes) hpc
            · obtain ⟨-, -, -, scope, hpush⟩ := hrule.of_enters trivial
              refine Or.inr ⟨inner ++ [scope], ?_⟩
              change ((r.actAll frame index (.enter tag condition :: rest)).current frame).pc.scopes =
                inner ++ ((r.act frame index (.enter tag condition)).current frame).pc.scopes
                at hinner
              rw [hinner, hpush, List.append_assoc]
              rfl
          · exact Or.inl ⟨[], tag, rest, rfl, .nil⟩
          · have hpc := Action.pc_eq_of_succeeds henters hexits hrule
            rcases ih _ hrest hcleanRest rfl with
              ⟨body, tag, later, rfl, hnested⟩ | ⟨inner, hinner⟩
            · exact Or.inl ⟨action :: body, tag, later, rfl, .cons henters hexits hnested⟩
            · refine Or.inr ⟨inner, ?_⟩
              rw [← hpc]
              exact hinner

end Replay

end InfoFlow
