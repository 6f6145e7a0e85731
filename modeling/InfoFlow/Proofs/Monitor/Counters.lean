import InfoFlow.Heap.Operation
import InfoFlow.Monitor
import InfoFlow.Proofs.Session.Counters

/-!
# Counters of a monitored program

A program asks its monitor to open sessions, to carry out their operations, to call other frames
from them and to close them, each under some key, and may work on the shared heap in between.
`answer` is what comes of one such request and `outcomes` what comes of one after the other. In
any such sequence the counters count the requests that fail as they say (`count_outcomes`).
-/

namespace InfoFlow

variable {L : Type} [Level L]

namespace HeapOperation

variable {e : Fault}

omit [Level L] in
theorem eq_error_of_setting {heap : Heap L} {set : Except Fault (L × Heap L)}
    (h : (setting heap set).1 = .error e) : set = .error e := by
  cases set with
  | error e' =>
      cases h
      rfl
  | ok set => cases h

theorem eq_error_of_map {α β : Type} {result : Except Fault α} {f : α → β}
    (h : result.map f = .error e) : result = .error e := by
  cases result with
  | error e' =>
      cases h
      rfl
  | ok a => cases h

theorem uncounted_of_perform {op : HeapOperation L} {heap : Heap L}
    (h : (op.perform heap).1 = .error e) : e.counter? = none := by
  cases op with
  | fieldLevel | elementLevel | size => exact Heap.uncounted_of_orUnknown (eq_error_of_map h)
  | setField | setElement => exact Heap.uncounted_of_orUnknown (eq_error_of_setting h)
  | _ => cases h

end HeapOperation

namespace Monitor

/-! ## §1  Requests -/

/-- What a program asks for under a key. -/
inductive Request (L : Type) where
  | openRoot (policy : Policy) (name : Option String) (ownHeap : Bool)
  | rename (name : String)
  | perform (op : Operation L)
  | call (callee : String) (arguments : List L) (key : String)
  | close
  | onHeap (op : HeapOperation L)

/-- Ask the session under a key. If none is open, nothing happens. -/
def ask {α : Type} (m : Monitor L) (key : String)
    (request : OpenSession L → Outcome Fault (Monitor L) α) : Outcome Fault (Monitor L) Unit :=
  match m.sessions[key]? with
  | none => .ok m ()
  | some opened => (request opened).map fun _ => ()

/-- What comes of a request. -/
def answer (m : Monitor L) (key : String) : Request L → Outcome Fault (Monitor L) Unit
  | .openRoot policy name ownHeap => m.openRoot key policy name ownHeap
  | .rename name => m.ask key fun opened => m.rename key opened name
  | .perform op => m.ask key fun opened => m.perform key opened op
  | .call callee arguments calleeKey =>
      m.ask key fun opened => m.call opened calleeKey callee arguments
  | .close => m.ask key (m.close key)
  | .onHeap op =>
      (Outcome.ofExcept (m.setHeap sharedHeap (op.perform (m.heap sharedHeap)).2)
        (op.perform (m.heap sharedHeap)).1).map fun _ => ()

/-- What comes of requests, each under its key, one after the other. -/
def outcomes (m : Monitor L) :
    List (String × Request L) → List (Outcome Fault (Monitor L) Unit)
  | [] => []
  | (key, request) :: requests =>
      m.answer key request :: (m.answer key request).state.outcomes requests

/-! ## §2  Every request is counted -/

omit [Level L] in
theorem counted_ask {α : Type} {m : Monitor L} {key : String}
    {request : OpenSession L → Outcome Fault (Monitor L) α}
    (h : ∀ opened, (request opened).Counted Fault.counter?) :
    (m.ask key request).Counted Fault.counter? := by
  unfold ask
  split
  · exact Outcome.counted_ok _ _
  · exact (h _).map _

theorem counted_answer (m : Monitor L) (key : String) (request : Request L) :
    (m.answer key request).Counted Fault.counter? := by
  cases request with
  | openRoot policy name ownHeap => exact Outcome.counted_noted rfl
  | rename name => exact counted_ask fun opened => Outcome.counted_ok _ _
  | perform op =>
      exact counted_ask fun opened => (op.counted_perform opened.session _).mapState _
  | call callee arguments calleeKey =>
      exact counted_ask fun opened => Outcome.counted_noted rfl
  | close => exact counted_ask fun opened => opened.session.counted_close.mapState _
  | onHeap op =>
      exact (Outcome.counted_ofExcept fun _ => HeapOperation.uncounted_of_perform).map _

theorem counted_outcomes (m : Monitor L) (requests : List (String × Request L)) :
    ∀ o ∈ m.outcomes requests, o.Counted Fault.counter? := by
  induction requests generalizing m with
  | nil => exact List.forall_mem_nil _
  | cons request requests ih =>
      obtain ⟨key, request⟩ := request
      exact List.forall_mem_cons.2 ⟨m.counted_answer key request, ih _⟩

/-- **In any sequence of requests**, a counter counts the failures that belong to it. -/
theorem count_outcomes (m : Monitor L) (requests : List (String × Request L)) {counter : Counter}
    {kind : Fault → Bool} (hkind : ∀ e : Fault, kind e = true ↔ e.counter? = some counter) :
    Journal.count ((m.outcomes requests).flatMap (·.journal)) counter =
      (m.outcomes requests).countP (·.fails kind) :=
  Outcome.count_flatMap_journal (m.counted_outcomes requests) hkind

end Monitor

end InfoFlow
