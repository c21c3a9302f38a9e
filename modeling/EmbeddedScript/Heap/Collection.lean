import EmbeddedScript.Heap.Marking
import EmbeddedScript.Roots

/-!
# Collection

A collection clears all marks, marks from the roots and sweeps what was not
reached. Sweeping empties a slot, advances its generation and frees its index.
The objects that were freed are handed back in the order of their slots: what
letting go of them sets off – a freed wrapper may have been the last owner of
its host – happens only once the heap is whole again.
-/

namespace EmbeddedScript

/-- **Collector statistics.** -/
structure GcStats where
  /-- The number of collections. -/
  collections : Nat := 0
  /-- The number of objects freed by all of them. -/
  freedInAll : Nat := 0
  /-- The number of objects marked by the last one. -/
  marked : Nat := 0
  /-- The number of objects freed by the last one. -/
  freed : Nat := 0
  /-- The number of objects live after the last one. -/
  live : Nat := 0
deriving DecidableEq, Inhabited

namespace Slot

/-- The slot after its object is swept. -/
def swept (s : Slot) : Slot :=
  { s with generation := s.generation + 1, occupant := none }

/-- The object to free, if there is one. -/
def garbage? (s : Slot) : Option HeapObject :=
  if s.marked then none else s.occupant.map (·.object)

end Slot

namespace Heap

/-- The indices of the slots to sweep, ascending. -/
def garbageIndices (heap : Heap) : List Nat :=
  (List.range heap.slots.size).filter fun i => heap.slots[i]?.any Slot.isGarbage

/-- **Sweep**: free every unmarked object. The slot freed last is the first to
be used again. -/
def sweep (heap : Heap) : List HeapObject × Heap :=
  let freed := heap.slots.toList.filterMap Slot.garbage?
  (freed,
    { heap with
      slots := heap.slots.map fun s => if s.isGarbage then s.swept else s
      free := heap.garbageIndices.reverse ++ heap.free
      live := heap.live - freed.length
      sinceCollection := 0 })

/-- **A full collection**: the freed objects in slot order, the heap and the
statistics afterwards. -/
def collect (heap : Heap) (roots : RootSet) (stats : GcStats) :
    List HeapObject × Heap × GcStats :=
  let marking := heap.unmarkAll.markFrom roots.handles
  let (freed, swept) := marking.heap.sweep
  (freed, swept,
    { collections := stats.collections + 1
      freedInAll := stats.freedInAll + freed.length
      marked := marking.marked
      freed := freed.length
      live := swept.live })

end Heap

end EmbeddedScript
