import InfoFlow.Heap

/-!
# The operations of the heap

Everything that can be asked of the heap, as data, with the answers.
-/

namespace InfoFlow

inductive HeapOperation (L : Type) where
  | allocate (kind : RecordKind)
  | trackObject (id : Handle)
  | trackField (id : Handle) (field : String)
  | trackArray (id : Handle) (length : UInt64)
  | trackElement (id : Handle) (index : UInt64)
  | fieldLevel (id : Handle) (field : String)
  | elementLevel (id : Handle) (index : UInt64)
  | setField (id : Handle) (field : String) (level : L)
  | setElement (id : Handle) (index : UInt64) (level : L)
  | size (id : Handle)
  | contains (id : Handle)
  | record (id : Handle)
  | clear
deriving DecidableEq, Repr

/-- What a heap operation answers. -/
inductive HeapReply (L : Type) where
  | done
  | handle (id : Handle)
  | truth (holds : Bool)
  | level (level : L)
  | count (slots : Nat)
  | record (record : Option (Record L))

namespace HeapOperation

variable {L : Type}

/-- The answer to setting a level: the level before. A failure leaves the heap as
it is. -/
def setting (heap : Heap L) : Except Fault (L × Heap L) → Except Fault (HeapReply L) × Heap L
  | .ok (previous, heap) => (.ok (.level previous), heap)
  | .error e => (.error e, heap)

variable [Level L]

/-- Carry out an operation. A registration answers whether anything was new,
except for whole arrays. -/
def perform (op : HeapOperation L) (heap : Heap L) :
    Except Fault (HeapReply L) × Heap L :=
  match op with
  | allocate kind =>
      let (id, heap) := heap.allocate kind
      (.ok (.handle id), heap)
  | trackObject id => (.ok (.truth (!heap.contains id)), heap.trackObject id)
  | trackField id field =>
      (.ok (.truth (!heap.containsSlot id field)), heap.trackField id field)
  | trackArray id length => (.ok .done, heap.trackArray id length)
  | trackElement id index =>
      (.ok (.truth (!heap.containsSlot id (indexKey index))), heap.trackElement id index)
  | fieldLevel id field => ((heap.fieldLevel id field).map .level, heap)
  | elementLevel id index => ((heap.elementLevel id index).map .level, heap)
  | setField id field level => setting heap (heap.setField id field level)
  | setElement id index level => setting heap (heap.setElement id index level)
  | size id => ((heap.size id).map .count, heap)
  | contains id => (.ok (.truth (heap.contains id)), heap)
  | record id => (.ok (.record (heap.record? id)), heap)
  | clear => (.ok .done, .empty)

end HeapOperation

end InfoFlow
