import InfoFlow.Session.Operation

/-!
# The monitor of a program

A program under observation has several sessions open at once, each known by a
key. They share one heap; a session opened apart gets a heap of its own, which
the sessions called from it share.
-/

namespace InfoFlow

open Std (ExtTreeMap)

/-- A session and the number of the heap it works on. -/
structure OpenSession (L : Type) where
  session : Session L
  heap : Nat

/-- The heaps of a program and its open sessions. Heap 0 is the shared one; a
heap that is not listed is empty. -/
structure Monitor (L : Type) where
  heaps : ExtTreeMap Nat (Heap L)
  sessions : ExtTreeMap String (OpenSession L)

namespace Monitor

variable {L : Type}

/-- No session is open and nothing is on the heap. -/
def empty : Monitor L := ⟨∅, ∅⟩

/-- The number of the heap that sessions share. -/
def sharedHeap : Nat := 0

def heap (m : Monitor L) (number : Nat) : Heap L := m.heaps[number]?.getD .empty

def setHeap (m : Monitor L) (number : Nat) (heap : Heap L) : Monitor L :=
  { m with heaps := m.heaps.insert number heap }

/-- The number of a heap that is not in use yet. -/
def newHeap (m : Monitor L) : Nat := (m.heaps.keys.foldl max sharedHeap) + 1

def setSession (m : Monitor L) (key : String) (opened : OpenSession L) : Monitor L :=
  { m with sessions := m.sessions.insert key opened }

variable [Level L]

/-- Open a root frame under `key`, on the shared heap or on one of its own. -/
def openRoot (m : Monitor L) (key : String) (policy : Policy) (name : Option String)
    (ownHeap : Bool) : Outcome Fault (Monitor L) Unit :=
  let session : Session L := .root policy
  let number := if ownHeap then m.newHeap else sharedHeap
  let opened := ⟨name.elim session session.named, number⟩
  .noted ((m.setHeap number (m.heap number)).setSession key opened) () [session.openingNote]

/-- Give a session another frame name. -/
def rename (m : Monitor L) (key : String) (opened : OpenSession L) (name : String) :
    Outcome Fault (Monitor L) Unit :=
  .ok (m.setSession key { opened with session := opened.session.named name }) ()

/-- Open a session under `key` for a frame called from an open one. -/
def call (m : Monitor L) (caller : OpenSession L) (key callee : String) (arguments : List L) :
    Outcome Fault (Monitor L) Unit :=
  let session := caller.session.call callee arguments
  .noted (m.setSession key ⟨session, caller.heap⟩) () [session.openingNote]

/-- Close a session. It is gone even when its frame may not close yet. -/
def close (m : Monitor L) (key : String) (opened : OpenSession L) :
    Outcome Fault (Monitor L) (Option L) :=
  opened.session.close.mapState fun _ => { m with sessions := m.sessions.erase key }

/-- Carry out an operation of an open session. -/
def perform (m : Monitor L) (key : String) (opened : OpenSession L) (op : Operation L) :
    Outcome Fault (Monitor L) (Reply L) :=
  (op.perform opened.session (m.heap opened.heap)).mapState fun (session, heap) =>
    (m.setHeap opened.heap heap).setSession key { opened with session }

/-! ## What an operation does to the heaps and the sessions -/

variable (m : Monitor L) (key : String) (opened : OpenSession L) (op : Operation L)

@[simp] theorem result_perform :
    (m.perform key opened op).result = (op.perform opened.session (m.heap opened.heap)).result :=
  rfl

theorem heap_perform (number : Nat) :
    (m.perform key opened op).state.heap number =
      if number = opened.heap then (op.perform opened.session (m.heap opened.heap)).state.2
      else m.heap number := by
  simp only [perform, Outcome.state_mapState, heap, setSession, setHeap,
    ExtTreeMap.getElem?_insert, Std.compare_eq_iff_eq, @eq_comm _ number]
  split <;> rfl

theorem sessions_perform (key' : String) :
    (m.perform key opened op).state.sessions[key']? =
      if key' = key then
        some ⟨(op.perform opened.session (m.heap opened.heap)).state.1, opened.heap⟩
      else m.sessions[key']? := by
  simp only [perform, Outcome.state_mapState, setSession, setHeap,
    ExtTreeMap.getElem?_insert, Std.compare_eq_iff_eq, @eq_comm _ key']

end Monitor

end InfoFlow
