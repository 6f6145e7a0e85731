import InfoFlow.Fault
import InfoFlow.Level

/-!
# The program counter of a frame

Inside a branch on a secret, everything that happens tells something about the
secret. The level of the program counter says how secret it is that the program
has come to this point: the join of the level at which the frame was called and
the levels of all branch conditions it is in.

The open branch scopes stand on a stack. Each keeps the level of the program
counter inside it, so that the level is read off the innermost scope.
-/

namespace InfoFlow

/-- An open branch scope: its tag, the level of its condition, and the level of
the program counter inside it. -/
structure Scope (L : Type) where
  tag : Tag
  condition : L
  inside : L
deriving DecidableEq, Repr

/-- The open scopes of a frame, innermost first, and the base level at which the
frame was called. At most `maxDepth` scopes may be open, if it is given. -/
structure ProgramCounter (L : Type) where
  scopes : List (Scope L)
  base : L
  maxDepth : Option UInt64
deriving DecidableEq, Repr

namespace ProgramCounter

variable {L : Type}

/-- The program counter of a frame called at `base`, with no open scope. -/
def start (base : L) (maxDepth : Option UInt64) : ProgramCounter L := ⟨[], base, maxDepth⟩

def depth (pc : ProgramCounter L) : Nat := pc.scopes.length

def isEmpty (pc : ProgramCounter L) : Bool := pc.scopes.isEmpty

/-- The tags of the open scopes, outermost first. -/
def openTags (pc : ProgramCounter L) : List Tag := pc.scopes.reverse.map (·.tag)

/-- The level of the program counter. -/
def level (pc : ProgramCounter L) : L :=
  match pc.scopes with
  | [] => pc.base
  | scope :: _ => scope.inside

/-- The nesting limit, if one scope more would break it. -/
def limitReached? (pc : ProgramCounter L) : Option UInt64 :=
  pc.maxDepth.filter (·.toNat ≤ pc.depth)

/-- One scope more is within the limit exactly when fewer are open. -/
theorem limitReached?_eq_none {pc : ProgramCounter L} :
    pc.limitReached? = none ↔ ∀ limit, pc.maxDepth = some limit → pc.depth < limit.toNat := by
  unfold limitReached?
  cases pc.maxDepth <;> simp

/-- Close the innermost scope, which must carry `tag`. -/
def leave (pc : ProgramCounter L) (tag : Tag) : Except Fault (ProgramCounter L) :=
  match pc.scopes with
  | [] => .error (.wrongExit none tag)
  | scope :: outer =>
      if scope.tag = tag then .ok { pc with scopes := outer }
      else .error (.wrongExit (some scope.tag) tag)

variable [Level L]

/-- The level of the innermost condition, `bottom` when no scope is open. -/
def innermost (pc : ProgramCounter L) : L :=
  match pc.scopes with
  | [] => Level.bottom
  | scope :: _ => scope.condition

/-- Open a scope whose condition is at level `condition`. -/
def enter (pc : ProgramCounter L) (condition : L) (tag : Tag) : Except Fault (ProgramCounter L) :=
  match pc.limitReached? with
  | some limit => .error (.tooDeep limit)
  | none => .ok { pc with scopes := ⟨tag, condition, Level.join pc.level condition⟩ :: pc.scopes }

/-- Entering a scope puts it on top, inside the level it is entered at. -/
theorem enter_eq_ok {pc pc' : ProgramCounter L} {condition : L} {tag : Tag} :
    pc.enter condition tag = .ok pc' ↔
      pc.limitReached? = none ∧
        pc' = { pc with scopes := ⟨tag, condition, Level.join pc.level condition⟩ :: pc.scopes } := by
  unfold enter
  cases pc.limitReached? <;> simp [eq_comm]

omit [Level L] in
/-- Leaving takes the innermost scope away, which carries the tag. -/
theorem leave_eq_ok {pc pc' : ProgramCounter L} {tag : Tag} :
    pc.leave tag = .ok pc' ↔
      ∃ scope outer, pc.scopes = scope :: outer ∧ scope.tag = tag ∧
        pc' = { pc with scopes := outer } := by
  unfold leave
  cases hs : pc.scopes with
  | nil => simp
  | cons scope outer =>
      by_cases ht : scope.tag = tag
      · simp only [if_pos ht, Except.ok.injEq]
        constructor
        · rintro rfl
          exact ⟨scope, outer, rfl, ht, rfl⟩
        · rintro ⟨_, _, heq, _, rfl⟩
          cases heq
          rfl
      · simp [ht]

end ProgramCounter

end InfoFlow
