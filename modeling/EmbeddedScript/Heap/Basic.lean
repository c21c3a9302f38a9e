import EmbeddedScript.Heap.Object
import EmbeddedScript.Error

/-!
# The slot heap

Objects live in a table of slots. A slot that is swept becomes empty, its
generation advances, and its index goes onto a stack of free slots; allocation
takes the top of that stack, or else adds a slot. A handle denotes an object as
long as its slot is occupied at its generation.

An occupant carries the number of its **birth**, the count of allocations before
it. Two occupants are the same object exactly when their births agree, which is
what "still the same object" means once slots are reused and generations wrap.
-/

namespace EmbeddedScript

/-- **An object in its slot.** -/
structure Occupant where
  /-- How many objects were allocated in this heap before this one. -/
  birth : Nat
  /-- The object itself. -/
  object : HeapObject
deriving DecidableEq

/-- **A slot of the heap.** -/
structure Slot where
  /-- How often the slot was swept, modulo `2 ^ 32`. -/
  generation : UInt32 := 0
  /-- The current collection has reached the slot's object. -/
  marked : Bool := false
  /-- The object, if the slot holds one. -/
  occupant : Option Occupant := none
deriving DecidableEq, Inhabited

/-- **A heap.** -/
structure Heap where
  /-- The slots, by index. -/
  slots : Array Slot := #[]
  /-- The empty slots; the next allocation takes the first. -/
  free : List Nat := []
  /-- The number of occupied slots. -/
  live : Nat := 0
  /-- The number of allocations since the last collection. -/
  sinceCollection : Nat := 0
  /-- The largest number of live objects; zero stands for no limit. -/
  limit : Nat := 0
  /-- The number of allocations so far. -/
  births : Nat := 0
deriving DecidableEq, Inhabited

namespace Heap

/-- The number of slot indices that a handle can name. -/
def indexBound : Nat := 0x100000000

/-- The slot that a handle names, if it still has the handle's generation. -/
def slot? (heap : Heap) (h : Handle) : Option Slot :=
  heap.slots[h.index]?.filter (·.generation = h.generation)

/-- The occupant that a handle denotes. -/
def occupant? (heap : Heap) (h : Handle) : Option Occupant :=
  (heap.slot? h).bind (·.occupant)

/-- **The object that a handle denotes**, if the handle is not stale. -/
def get? (heap : Heap) (h : Handle) : Option HeapObject :=
  (heap.occupant? h).map (·.object)

/-- The object that a handle denotes, or the error of a stale handle. -/
def get (heap : Heap) (h : Handle) : Except EngineError HeapObject :=
  match heap.get? h with
  | some o => .ok o
  | none => .error (.staleHandle h)

/-- The handle denotes an object. -/
def isLive (heap : Heap) (h : Handle) : Bool := (heap.occupant? h).isSome

/-- The value is a primitive or denotes an object. -/
def isCurrent (heap : Heap) (v : Value) : Bool :=
  match v.handle? with
  | some h => heap.isLive h
  | none => true

/-- **The stale ones among some values.** The heap is handed back, so that it has no
second owner while it is changed afterwards. -/
@[noinline] def staleAmong (heap : Heap) (vs : List Value) : List Value × Heap :=
  (vs.filter fun v => !heap.isCurrent v, heap)

/-- Replace the object that a handle denotes; a stale handle changes nothing.
The occupant stays the same occupant. -/
def put (heap : Heap) (h : Handle) (o : HeapObject) : Heap :=
  if (heap.occupant? h).isSome then
    { heap with slots := heap.slots.modify h.index fun s =>
        { s with occupant := s.occupant.map fun a => { a with object := o } } }
  else heap

/-- **Why the heap takes no further object**: it is at its limit, or every index is
taken. -/
def refusal? (heap : Heap) : Option EngineError :=
  if 0 < heap.limit ∧ heap.limit ≤ heap.live then some (.heapLimit heap.limit)
  else if heap.free.isEmpty ∧ indexBound ≤ heap.slots.size then
    some (.heapLimit (indexBound - 1))
  else none

/-- Put an object into the next slot. -/
def place (heap : Heap) (o : HeapObject) : Handle × Heap :=
  let occupant : Option Occupant := some ⟨heap.births, o⟩
  match heap.free with
  | index :: free =>
    let generation := (heap.slots.getD index default).generation
    (⟨index, generation⟩,
      { heap with
        slots := heap.slots.modify index fun s =>
          { s with marked := false, occupant := occupant }
        free := free
        live := heap.live + 1
        sinceCollection := heap.sinceCollection + 1
        births := heap.births + 1 })
  | [] =>
    (⟨heap.slots.size, 0⟩,
      { heap with
        slots := heap.slots.push { occupant := occupant }
        live := heap.live + 1
        sinceCollection := heap.sinceCollection + 1
        births := heap.births + 1 })

/-- **Allocation.** -/
def allocate (heap : Heap) (o : HeapObject) : Except EngineError (Handle × Heap) :=
  match heap.refusal? with
  | some err => .error err
  | none => .ok (heap.place o)

end Heap

end EmbeddedScript
