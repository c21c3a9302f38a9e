import EmbeddedScript.Heap.Collection
import EmbeddedScript.Heap.Elements
import EmbeddedScript.Lock

/-!
# The engine's state

One engine owns a heap, its roots and statistics, the exclusivity lock and the
list of exceptions that were reported. The heap is lent out while an operation
looks at it or changes it: the **loan** is part of the state, so that it can be
said of every moment at which the engine runs foreign code whether the heap was
lent.
-/

namespace EmbeddedScript

/-- **The configuration of an engine.** -/
structure Options where
  /-- A safepoint collects after this many allocations; zero for never. -/
  gcThreshold : Nat := 4096
  /-- The largest number of live objects; zero for no limit. -/
  maxHeapObjects : Nat := 0
deriving DecidableEq

/-- **How the heap is lent out.** -/
inductive Loan where
  /-- To this many readers. -/
  | shared (readers : Nat)
  /-- To one writer. -/
  | exclusive
deriving DecidableEq

namespace Loan

/-- Nobody has the heap. -/
def none : Loan := shared 0

/-- The heap may be read. -/
def allowsRead : Loan → Bool
  | shared _ => true
  | exclusive => false

/-- The heap may be written. -/
def allowsWrite (l : Loan) : Bool := l = none

/-- The loan with one more reader. -/
def withReader : Loan → Loan
  | shared n => shared (n + 1)
  | exclusive => exclusive

/-- The loan with one reader fewer. -/
def withoutReader : Loan → Loan
  | shared n => shared (n - 1)
  | exclusive => exclusive

end Loan

/-- **The state of one engine.** -/
structure Engine where
  /-- The configuration. -/
  options : Options := {}
  /-- The heap. -/
  heap : Heap := {}
  /-- How the heap is lent out at this moment. -/
  loan : Loan := .none
  /-- The roots. -/
  roots : RootSet := {}
  /-- The collector's statistics. -/
  stats : GcStats := {}
  /-- The exclusivity lock. -/
  lock : Lock := {}
  /-- The descriptions of reported exceptions, the oldest first. -/
  reported : List String := []
deriving DecidableEq

namespace Engine

/-- A new engine. -/
def new (options : Options) : Engine :=
  { options := options, heap := { limit := options.maxHeapObjects } }

instance : Inhabited Engine := ⟨new {}⟩

/-- The diagnostic text of an engine. -/
def diagnostic (e : Engine) : String :=
  s!"Engine \x7b live_objects: {e.heap.live}, lock_depth: {e.lock.depth} \x7d"

end Engine

/-- **The name of an engine.** -/
structure EngineId where
  /-- The engine's number. -/
  index : Nat
deriving DecidableEq, Inhabited

end EmbeddedScript
