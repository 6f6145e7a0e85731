import InfoFlow.Level.CategorySet
import InfoFlow.Proofs.Session.OwnLevel
import InfoFlow.Proofs.Session.Reading

/-!
# Handing a value through calls

A frame calls another one with a value, which calls the next one with it, and so on; then
each frame returns what it has received, or what the next one has returned to it. On the way
down the level of the value is raised to the program counter of every call, on the way up to
that of every return. All of these are the program counter of the first caller, which a write
would add in any case: it makes no difference to the caller whether it writes the value or
what comes back (`forwarding_transparent`).
-/

namespace InfoFlow

open Level (join bottom)
open LawfulJoin

variable {L : Type} [Level L]

/-! ## §1  Chains of calls -/

/-- A frame that is called with a value and hands it on. -/
structure Forwarder where
  frame : String
  /-- The local that the argument is bound to. -/
  received : String
  /-- The local that is assigned what the next frame returns, if this is not ignored. -/
  taken : Option String

/-- The local whose value the frame returns. -/
def Forwarder.result (f : Forwarder) : String := f.taken.getD f.received

/-- Carry out an operation; a failure ends everything. -/
def Operation.act (op : Operation L) (state : Session L × Heap L) :
    Except Fault (Session L × Heap L) :=
  (op.perform state.1 state.2).result.map fun _ => (op.perform state.1 state.2).state

/-- Assign what the next frame has returned, unless it is ignored. -/
def Forwarder.take (f : Forwarder) (returned : Option L) (state : Session L × Heap L) :
    Except Fault (Session L × Heap L) :=
  match f.taken with
  | none => .ok state
  | some name => (Operation.declare name).act state >>=
      (Operation.write name (returned.getD bottom)).act

/-- What comes back when `caller` calls these frames, each from the one before, with
`argument`, and the heap after it. Without a frame the argument itself comes back. -/
def Session.relay (caller : Session L) (heap : Heap L) (argument : L) :
    List Forwarder → Except Fault (Option L × Heap L)
  | [] => .ok (some argument, heap)
  | f :: rest => do
      let (s, heap) ← (Operation.bindArgument 0 f.received).act
        (caller.call f.frame [argument], heap)
      let level ← (s.read f.received).result
      let (returned, heap) ← s.relay heap level rest
      let (s, heap) ← f.take returned (s, heap)
      let (s, heap) ← (Operation.returnLocal f.result).act (s, heap)
      let returned ← s.close.result
      return (returned, heap)

/-! ## §2  One frame of a chain -/

theorem Operation.act_of_succeeds {s s' : Session L} {heap heap' : Heap L} {op : Operation L}
    {reply : Reply L} (h : op.Succeeds s heap reply s' heap') :
    op.act (s, heap) = .ok (s', heap') := by
  obtain ⟨hresult, hstate⟩ := perform_of_succeeds h
  unfold act
  rw [hresult, hstate]
  rfl

namespace Session

/-- Session `s`, which was opened at `base`, has no open scope, and all its locals were declared
under `base`. -/
structure Unbranched (s : Session L) (base : L) : Prop where
  scopes : s.pc.scopes = []
  base_eq : s.pc.base = base
  under : ∀ x slot, s.locals.find? x = some slot → slot.declaredUnder = base

/-- Such a session has the value that is handed on in local `name`. -/
structure Carries (s : Session L) (base level : L) (name : String) : Prop
    extends Unbranched s base where
  found : s.locals.find? name = some ⟨level, base⟩

variable {s : Session L} {base level : L} {name : String} {f : Forwarder}

theorem read_of_found {slot : LocalLabel L} (found : s.locals.find? name = some slot) :
    (s.read name).result = .ok slot.level := by
  rw [result_read]
  exact Locals.level_eq_ok.2 ⟨slot, found, rfl⟩

/-- A write changes no program counter, whether it is refused or not. -/
theorem pc_write (s : Session L) (name : String) (operand : L) :
    (s.write name operand).state.pc = s.pc := by
  unfold write
  cases s.locals.slot name with
  | error e => rfl
  | ok slot => dsimp only; split <;> rfl

/-- A write raises the value to the program counter, so it may be raised before. -/
theorem write_raised [LawfulJoin L] (s : Session L) (name : String) (operand : L) :
    s.write name (join operand s.pc.level) = s.write name operand := by
  have hrequired : join (join operand s.pc.level) s.pc.level = join operand s.pc.level :=
    join_eq_left.2 (right_le_join operand s.pc.level)
  simp only [write, hrequired]

omit [Level L] in
theorem Unbranched.pc_level (h : s.Unbranched base) : s.pc.level = base := by
  unfold ProgramCounter.level
  rw [h.scopes]
  exact h.base_eq

omit [Level L] in
theorem Unbranched.put (h : s.Unbranched base) (name : String) (level : L) :
    Session.Carries { s with locals := s.locals.put name ⟨level, base⟩ } base level name where
  scopes := h.scopes
  base_eq := h.base_eq
  under x slot hx := by
    rw [Locals.find?_put] at hx
    split at hx
    · cases hx
      rfl
    · exact h.under x slot hx
  found := Locals.find?_put_self _ _ _

/-- A declaration finds or makes a local that was declared under the base. -/
theorem Unbranched.declare (h : s.Unbranched base) (name : String) :
    Session.Unbranched { s with locals := s.locals.declare name s.pc.level } base ∧
      ∃ level, (s.locals.declare name s.pc.level).find? name = some ⟨level, base⟩ := by
  have hunder : (s.declared name).declaredUnder = base := by
    unfold declared
    cases hfound : s.locals.find? name with
    | none => exact h.pc_level
    | some slot => exact h.under name slot hfound
  refine ⟨⟨h.scopes, h.base_eq, fun x slot hx => ?_⟩, (s.declared name).level, ?_⟩
  · by_cases hname : x = name
    · subst hname
      rw [find?_declared] at hx
      cases hx
      exact hunder
    · rw [Locals.find?_declare, if_neg hname] at hx
      exact h.under x slot hx
  · rw [find?_declared, ← hunder]

theorem call_unbranched (caller : Session L) (callee : String) (arguments : List L) :
    (caller.call callee arguments).Unbranched caller.pc.level where
  scopes := rfl
  base_eq := rfl
  under x slot hx := by
    have hnone : (caller.call callee arguments).locals.find? x = none := Locals.find?_empty x
    rw [hnone] at hx
    cases hx

/-- A frame that is called binds its argument, raised to the program counter of the call. -/
theorem bind_argument (caller : Session L) (heap : Heap L) (argument : L) (f : Forwarder) :
    ∃ s, (Operation.bindArgument 0 f.received).act (caller.call f.frame [argument], heap) =
        .ok (s, heap) ∧
      s.Carries caller.pc.level (join argument caller.pc.level) f.received := by
  obtain ⟨hdeclared, level, hfound⟩ :=
    (call_unbranched caller f.frame [argument]).declare f.received
  exact ⟨_, Operation.act_of_succeeds (.bindArgument rfl hfound), hdeclared.put _ _⟩

/-- What the next frame returns, raised to the base, may be assigned to any local. -/
theorem Carries.take [LawfulJoin L] (h : s.Carries base level f.received) (heap : Heap L)
    (hbase : base ≤ level) :
    ∃ s', f.take (some level) (s, heap) = .ok (s', heap) ∧ s'.Carries base level f.result := by
  unfold Forwarder.take Forwarder.result
  cases f.taken with
  | none => exact ⟨s, rfl, h⟩
  | some name =>
      obtain ⟨hdeclared, before, hfound⟩ := h.toUnbranched.declare name
      have hadmitted : Session.PreExisting { s with locals := s.locals.declare name s.pc.level }
          ⟨before, base⟩ → join level s.pc.level ≤ before := by
        intro hpre
        refine absurd ?_ hpre
        rw [h.pc_level]
        exact le_refl base
      have hrule : (Operation.write name level).Succeeds _ heap _ _ heap := .write hfound hadmitted
      have hwrite := Operation.act_of_succeeds hrule
      have hrequired : join level s.pc.level = level := by
        rw [h.pc_level]
        exact join_eq_left.2 hbase
      rw [hrequired] at hwrite
      refine ⟨_, ?_, hdeclared.put name level⟩
      show ((Operation.declare name).act (s, heap) >>= (Operation.write name level).act) = _
      rw [Operation.act_of_succeeds (.declare name)]
      exact hwrite

/-- A frame returns the value it carries, and closes. -/
theorem Carries.return_close [LawfulJoin L] (h : s.Carries base level name) (heap : Heap L)
    (hbase : base ≤ level) :
    ∃ s', (Operation.returnLocal name).act (s, heap) = .ok (s', heap) ∧
      s'.close.result = .ok (some level) := by
  have hreturned : join level s.pc.level = level := by
    rw [h.pc_level]
    exact join_eq_left.2 hbase
  refine ⟨_, Operation.act_of_succeeds (.returnLocal h.found), ?_⟩
  have hclose : Session.checkClose { s with returned := some (join level s.pc.level) } =
      .ok () := by
    simp [checkClose, ProgramCounter.isEmpty, h.scopes]
  unfold close
  rw [hclose, hreturned]
  rfl

/-! ## §3  All frames of a chain -/

variable [LawfulJoin L]

/-- What the first frame of a chain receives comes back, if it comes back from the others. -/
theorem relay_cons (caller : Session L) (heap : Heap L) (argument : L) (f : Forwarder)
    {rest : List Forwarder}
    (hrest : ∀ s : Session L, s.pc.level = caller.pc.level →
      s.relay heap (join argument caller.pc.level) rest =
        .ok (some (join argument caller.pc.level), heap)) :
    caller.relay heap argument (f :: rest) =
      .ok (some (join argument caller.pc.level), heap) := by
  have hbase := right_le_join argument caller.pc.level
  obtain ⟨bound, hbind, hbound⟩ := bind_argument caller heap argument f
  obtain ⟨taken, htake, htaken⟩ := hbound.take heap hbase
  obtain ⟨returning, hreturn, hclose⟩ := htaken.return_close heap hbase
  unfold relay
  rw [hbind]
  simp only [bind, Except.bind, read_of_found hbound.found, hrest bound hbound.pc_level, htake,
    hreturn, hclose]
  rfl

/-- A value at the program counter or above goes through a chain of calls unchanged. -/
theorem relay_of_le (heap : Heap L) {argument : L} (frames : List Forwarder) :
    ∀ caller : Session L, caller.pc.level ≤ argument →
      caller.relay heap argument frames = .ok (some argument, heap) := by
  induction frames with
  | nil => intro caller _; rfl
  | cons f rest ih =>
      intro caller hlevel
      have hargument : join argument caller.pc.level = argument := join_eq_left.2 hlevel
      have hrelay : caller.relay heap argument (f :: rest) = _ :=
        caller.relay_cons heap argument f fun s hs => by
          rw [hargument]
          exact ih s (hs ▸ hlevel)
      rw [hargument] at hrelay
      exact hrelay

/-- **Handing a value through calls does not change it.** A value read from a local goes down
a chain of calls, one frame or more, and comes back up; this always succeeds, and leaves the
heap as it was. For a write in the frame that called the chain it makes no difference whether
it assigns what came back or the value itself: it commits the same level and leaves the same
locals, or is refused as the same illegal flow. The program counter stays. -/
theorem forwarding_transparent (s : Session L) (heap : Heap L) {x : String} {slot : LocalLabel L}
    (hx : s.locals.find? x = some slot) (f : Forwarder) (rest : List Forwarder) (r : String) :
    let returned := join slot.level s.pc.level
    (s.read x).result = .ok slot.level ∧
      s.relay heap slot.level (f :: rest) = .ok (some returned, heap) ∧
      s.write r returned = s.write r slot.level ∧ (s.write r returned).state.pc = s.pc := by
  have hraised := right_le_join slot.level s.pc.level
  refine ⟨read_of_found hx, ?_, write_raised s r slot.level, pc_write s r _⟩
  exact s.relay_cons heap slot.level f fun s' hs => relay_of_le heap rest s' (hs ▸ hraised)

section Witness

open CategorySet (ofBits)

/-- A frame that got a value of one category and is in a branch on the other one. -/
def ownsSecret : Session (CategorySet 2) :=
  (Event.after (root {}, .empty) [.own (.declare "x"), .own (.label "x" (ofBits 2)),
    .own (.declare "r"), .own (.enter ⟨"if"⟩ [ofBits 1])]).1

/-- Three frames; the second one assigns what the third one returns. -/
def threeForwarders : List Forwarder :=
  [⟨"first", "a", none⟩, ⟨"second", "a", some "b"⟩, ⟨"third", "c", none⟩]

/-- What comes back after three calls carries both categories, as the write of the value itself
would, and is refused for it. -/
theorem forwarding_transparent_threeForwarders :
    ownsSecret.locals.find? "x" = some ⟨ofBits 2, ofBits 0⟩ ∧
      ownsSecret.relay .empty (ofBits 2) threeForwarders = .ok (some (ofBits 3), .empty) ∧
      (ownsSecret.write "r" (ofBits 3)).result = (ownsSecret.write "r" (ofBits 2)).result ∧
      (ownsSecret.write "r" (ofBits 2)).result = .error (.illegalFlow (.local "r")
        (.sensitiveUpgrade "\x7b0,1\x7d" "\x7b\x7d" "\x7b0\x7d")) := by
  have hx : ownsSecret.locals.find? "x" = some ⟨ofBits 2, ofBits 0⟩ := by rfl
  have hreturned : join (ofBits 2) ownsSecret.pc.level = ofBits 3 := by rfl
  obtain ⟨-, hrelay, hwrite, -⟩ :=
    forwarding_transparent ownsSecret .empty hx _ threeForwarders.tail "r"
  rw [hreturned] at hrelay hwrite
  exact ⟨hx, hrelay, congrArg _ hwrite, by rfl⟩

end Witness

end Session

end InfoFlow
