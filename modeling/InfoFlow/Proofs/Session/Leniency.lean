import InfoFlow.Proofs.Session.Reading

/-!
# A session under a more lenient policy

A policy says what counts as a misuse of the monitor, never what counts as an illegal
flow. A session can therefore be put under a policy that is more lenient than its own
(`Policy.AtLeastAsStrict`): an operation that succeeds still does, with the same
answer, and leaves the same (`Succeeds.withPolicy`); an operation that ends in an illegal
flow ends in the same one (`Fails.withPolicy`). What registers a slot before it is set
changes nothing where the strict policy let the slot be set.
-/

namespace InfoFlow

open Level (join joinAll)

variable {L : Type} {strict lenient : Policy}

/-! ## §1  Policies by their strictness -/

/-- What `lenient` refuses as a misuse, `strict` refuses too. No limit counts as an
infinite one. -/
structure Policy.AtLeastAsStrict (strict lenient : Policy) : Prop where
  autoRegister : strict.autoRegister = true → lenient.autoRegister = true
  balancedClose : lenient.balancedClose = true → strict.balancedClose = true
  maxDepth : ∀ limit, lenient.maxDepth = some limit →
    ∃ limit', strict.maxDepth = some limit' ∧ limit' ≤ limit

namespace Session

/-- The same session under another policy: the same locals, scopes, arguments and
return level. -/
def withPolicy (s : Session L) (policy : Policy) : Session L :=
  { s with policy, pc := { s.pc with maxDepth := policy.maxDepth } }

/-- The session was opened under this policy. -/
structure Follows (s : Session L) (policy : Policy) : Prop where
  policy_eq : s.policy = policy
  maxDepth_eq : s.pc.maxDepth = policy.maxDepth

variable {s s' : Session L}

theorem limitReached?_withPolicy (hs : s.Follows strict) (hp : strict.AtLeastAsStrict lenient)
    (h : s.pc.limitReached? = none) : (s.withPolicy lenient).pc.limitReached? = none := by
  rw [ProgramCounter.limitReached?_eq_none] at h ⊢
  intro limit hlimit
  obtain ⟨limit', hlimit', hle⟩ := hp.maxDepth limit hlimit
  have hdepth : s.pc.depth < limit'.toNat := h limit' (hs.maxDepth_eq.trans hlimit')
  exact Nat.lt_of_lt_of_le hdepth (UInt64.le_iff_toNat_le.1 hle)

theorem leave_withPolicy (s : Session L) (policy : Policy) {tag : Tag} {pc : ProgramCounter L}
    (h : s.pc.leave tag = .ok pc) :
    (s.withPolicy policy).pc.leave tag = .ok { pc with maxDepth := policy.maxDepth } := by
  obtain ⟨scope, outer, hscopes, htag, rfl⟩ := ProgramCounter.leave_eq_ok.1 h
  exact ProgramCounter.leave_eq_ok.2 ⟨scope, outer, hscopes, htag, rfl⟩

theorem checkClose_withPolicy (hs : s.Follows strict) (hp : strict.AtLeastAsStrict lenient)
    (h : s.checkClose = .ok ()) : (s.withPolicy lenient).checkClose = .ok () := by
  unfold checkClose at h ⊢
  rw [hs.policy_eq] at h
  have hempty : (s.withPolicy lenient).pc.isEmpty = s.pc.isEmpty := rfl
  have hpolicy : (s.withPolicy lenient).policy = lenient := rfl
  rw [hempty, hpolicy]
  cases hbalanced : lenient.balancedClose with
  | false => rfl
  | true =>
      rw [hp.balancedClose hbalanced] at h
      cases hopen : s.pc.isEmpty with
      | true => rfl
      | false =>
          rw [hopen] at h
          cases h

variable [Level L] {heap heap' : Heap L}

theorem enter_withPolicy (hs : s.Follows strict) (hp : strict.AtLeastAsStrict lenient)
    {condition : L} {tag : Tag} {pc : ProgramCounter L} (h : s.pc.enter condition tag = .ok pc) :
    (s.withPolicy lenient).pc.enter condition tag =
      .ok { pc with maxDepth := lenient.maxDepth } := by
  obtain ⟨hlimit, rfl⟩ := ProgramCounter.enter_eq_ok.1 h
  exact ProgramCounter.enter_eq_ok.2 ⟨limitReached?_withPolicy hs hp hlimit, rfl⟩

/-! ## §2  Reading -/

/-- What is read does not depend on the policy. -/
theorem readAll_withPolicy (s : Session L) (policy : Policy) (names : List String) :
    (s.withPolicy policy).readAll names = s.readAll names := by
  induction names with
  | nil => rfl
  | cons name names ih =>
      unfold readAll
      rw [ih]
      rfl

theorem joinOperands_withPolicy (s : Session L) (policy : Policy) (heap : Heap L) (level : L)
    (operands : List (Operand L)) :
    ((s.withPolicy policy).joinOperands heap level operands).result =
      (s.joinOperands heap level operands).result :=
  joinOperands_congr (s := s) (t := s.withPolicy policy) rfl heap level operands

theorem argumentLevels_withPolicy (s : Session L) (policy : Policy) (heap : Heap L)
    (arguments : List (Operand L)) :
    ((s.withPolicy policy).argumentLevels heap arguments).result =
      (s.argumentLevels heap arguments).result :=
  argumentLevels_congr (s := s) (t := s.withPolicy policy) rfl heap arguments

/-! ## §3  Setting slots -/

omit [Level L] in
/-- Whether a slot is registered before it is set makes no difference where it is
registered already. -/
theorem setSlot?_lenient {tracked : Heap L} {id : Handle} {key : String} {level previous : L}
    (hsame : ∀ level, heap.level? id key = some level → tracked = heap) {auto auto' : Bool}
    (hauto : auto = true → auto' = true)
    (set : (if auto then tracked else heap).setSlot? id key level = some (previous, heap')) :
    (if auto' then tracked else heap).setSlot? id key level = some (previous, heap') := by
  cases auto with
  | true =>
      rw [hauto rfl]
      exact set
  | false =>
      have set : heap.setSlot? id key level = some (previous, heap') := set
      -- it was set without being registered first, so it was registered before
      have hregistered := hsame previous (Heap.setSlot?_eq_some set).1
      rw [hregistered, ite_self]
      exact set

theorem setSlot?_withField (hs : s.Follows strict) (hp : strict.AtLeastAsStrict lenient)
    {id : Handle} {field : String} {level previous : L}
    (set : (s.withField heap id field).setSlot? id field level = some (previous, heap')) :
    ((s.withPolicy lenient).withField heap id field).setSlot? id field level =
      some (previous, heap') := by
  unfold withField at set ⊢
  rw [hs.policy_eq] at set
  exact setSlot?_lenient (fun _ => Heap.trackField_of_some) hp.autoRegister set

theorem setSlot?_withElement (hs : s.Follows strict) (hp : strict.AtLeastAsStrict lenient)
    {id : Handle} {index : UInt64} {level previous : L}
    (set : (s.withElement heap id index).setSlot? id (indexKey index) level =
      some (previous, heap')) :
    ((s.withPolicy lenient).withElement heap id index).setSlot? id (indexKey index) level =
      some (previous, heap') := by
  unfold withElement at set ⊢
  rw [hs.policy_eq] at set
  exact setSlot?_lenient (fun _ => Heap.trackElement_of_some) hp.autoRegister set

end Session

/-! ## §4  Operations -/

namespace Operation

open Session

variable [Level L] {s s' : Session L} {heap heap' : Heap L} {op : Operation L} {reply : Reply L}
  {e : Fault}

theorem Succeeds.follows (h : Succeeds s heap op reply s' heap') (hs : s.Follows strict) :
    s'.Follows strict := by
  obtain ⟨hpolicy, hdepth⟩ := hs
  cases h with
  | enter entered =>
      obtain ⟨-, rfl⟩ := ProgramCounter.enter_eq_ok.1 entered
      exact ⟨hpolicy, hdepth⟩
  | enterOn read entered =>
      obtain ⟨-, rfl⟩ := ProgramCounter.enter_eq_ok.1 entered
      exact ⟨hpolicy, hdepth⟩
  | exit left =>
      obtain ⟨scope, outer, -, -, rfl⟩ := ProgramCounter.leave_eq_ok.1 left
      exact ⟨hpolicy, hdepth⟩
  | _ => exact ⟨hpolicy, hdepth⟩

/-- **What succeeds under a strict policy succeeds under a lenient one**, with the same
answer, and leaves the same. -/
theorem Succeeds.withPolicy (h : Succeeds s heap op reply s' heap') (hs : s.Follows strict)
    (hp : strict.AtLeastAsStrict lenient) :
    Succeeds (s.withPolicy lenient) heap op reply (s'.withPolicy lenient) heap' := by
  cases h with
  | declare name => exact .declare name
  | read found => exact .read found
  | write found admitted => exact .write found admitted
  | label found => exact .label found
  | trackObject id => exact .trackObject id
  | trackField id field => exact .trackField id field
  | trackArray id length => exact .trackArray id length
  | newObject => exact .newObject
  | newArray length => exact .newArray length
  | readField found => exact .readField found
  | readElement found => exact .readElement found
  | writeField set => exact .writeField (setSlot?_withField hs hp set)
  | writeElement set => exact .writeElement (setSlot?_withElement hs hp set)
  | labelField set => exact .labelField (setSlot?_withField hs hp set)
  | enter entered => exact .enter (enter_withPolicy hs hp entered)
  | enterOn read entered =>
      rw [← readAll_withPolicy s lenient] at read
      exact .enterOn read (enter_withPolicy hs hp entered)
  | exit left => exact .exit (leave_withPolicy s lenient left)
  | checkBelowTop found below => exact .checkBelowTop found below
  | checkSink found below => exact .checkSink found below
  | bindArgument passed found => exact .bindArgument passed found
  | returnLocal found => exact .returnLocal found
  | returnConstant => exact .returnConstant
  | checkClose balanced => exact .checkClose (checkClose_withPolicy hs hp balanced)

/-- **An illegal flow is one under any policy.** -/
theorem Fails.withPolicy (h : Fails s heap op e) (hviolation : e.isViolation = true)
    (policy : Policy) : Fails (s.withPolicy policy) heap op e := by
  cases h with
  | write found preExisting raised => exact .write found preExisting raised
  | checkBelowTop found top => exact .checkBelowTop found top
  | checkSink found above => exact .checkSink found above
  | unread unread =>
      rw [not_violation_of_readAll unread] at hviolation
      cases hviolation
  | exit left =>
      rw [not_violation_of_leave left] at hviolation
      cases hviolation
  | checkClose unbalanced =>
      rw [not_violation_of_checkClose unbalanced] at hviolation
      cases hviolation
  | _ => cases hviolation

end Operation

end InfoFlow
