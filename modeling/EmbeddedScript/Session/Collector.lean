import EmbeddedScript.Roots
import EmbeddedScript.Heap.Collection
import EmbeddedScript.Heap.Elements
import EmbeddedScript.Session.Report

/-!
# Sessions on a heap

A heap and its roots by themselves, with named handles. The natives that objects
refer to are stood for by whether they can be called.
-/

namespace EmbeddedScript

/-- **A heap, its roots and named handles.** -/
structure HeapSession where
  /-- The heap. -/
  heap : Heap := {}
  /-- The roots. -/
  roots : RootSet := {}
  /-- The handles. -/
  handles : List (String × Handle) := []
  /-- Whether each native can be called. -/
  callables : Array Bool := #[]

namespace HeapSession

/-- The handle of a name; the first slot's first handle if there is none. -/
def handle (s : HeapSession) (name : String) : Handle := (s.handles.lookup name).getD ⟨0, 0⟩

/-- The native that the next object will refer to. -/
def nextNative (s : HeapSession) : NativeId := ⟨s.callables.size⟩

/-- Put another heap in place of this one. -/
def reset (s : HeapSession) (limit : Nat) : HeapSession := { s with heap := { limit := limit } }

/-- **Allocate an object** under a name. -/
def allocate (s : HeapSession) (name : String) (o : HeapObject) (callable : Bool) :
    Except EngineError (Handle × HeapSession) := do
  let (h, heap) ← s.heap.allocate o
  return (h, { s with
    heap := heap
    handles := (name, h) :: s.handles.filter (·.1 ≠ name)
    callables := s.callables.push callable })

/-- The kind of an object. -/
def kind (s : HeapSession) (o : HeapObject) : ObjectKind :=
  o.kind ((o.native?.bind fun id => s.callables[id.index]?).getD false)

/-- What an object says of itself. -/
def inspect (s : HeapSession) (h : Handle) : Except EngineError Report := do
  let o ← s.heap.get h
  return .record [("debug", .text o.diagnostic), ("kind", .text (s.kind o).name)]

/-- Write a property of a plain object; other objects are only shown. -/
def put (s : HeapSession) (h : Handle) (name : String) (v : Value) :
    Except EngineError (Report × HeapSession) := do
  match ← s.heap.get h with
  | .plain props => return (.ok, { s with heap := s.heap.put h (.plain (props.set name v)) })
  | o => return (.record [("other", .text o.diagnostic)], s)

/-- All rooted handles in order, each as often as it is rooted. -/
def rooted (s : HeapSession) : Report :=
  let pairs := s.roots.handles.map fun h => (h.index, h.generation.toNat)
  let sorted := pairs.mergeSort fun a b => a.1 < b.1 || (a.1 = b.1 && a.2 ≤ b.2)
  .list (sorted.map fun (i, g) => .list [.count i, .count g])

/-- How the heap stands, beside the report of a step. -/
def answer (s : HeapSession) (r : Report) : Report :=
  .record [("r", r), ("live", .count s.heap.live), ("since", .count s.heap.sinceCollection),
    ("rooted", .count s.roots.distinct.length)]

end HeapSession

end EmbeddedScript
