import EmbeddedScript.Value

/-!
# Roots

Two kinds of root keep objects alive. **Persistent roots** are counted, one
count for each native holder; they are kept as a bag of handles, so that the
count of a handle is its number of occurrences. **Stack roots** pin the operands
of engine calls in flight; each call truncates the stack to the height it found.
Primitives need no root, and asking for one changes nothing.
-/

namespace EmbeddedScript

/-- **The roots of a heap.** -/
structure RootSet where
  /-- The persistent roots, each handle as often as it is counted. -/
  persistent : List Handle := []
  /-- The stack roots, the oldest first. -/
  stack : Array Handle := #[]
deriving DecidableEq, Inhabited

namespace RootSet

/-- Add one persistent root for a value. -/
def protect (r : RootSet) (v : Value) : RootSet :=
  match v.handle? with
  | some h => { r with persistent := h :: r.persistent }
  | none => r

/-- The value has a persistent root to take away, or needs none. -/
def canUnprotect (r : RootSet) (v : Value) : Bool :=
  v.handle?.all (r.persistent.contains ·)

/-- Take one persistent root of a value away; without one, nothing changes. -/
def unprotect (r : RootSet) (v : Value) : RootSet :=
  match v.handle? with
  | some h => { r with persistent := r.persistent.erase h }
  | none => r

/-- The number of persistent roots of a value. -/
def protectCount (r : RootSet) (v : Value) : Nat :=
  (v.handle?.map (r.persistent.count ·)).getD 0

/-- The height of the stack. -/
def height (r : RootSet) : Nat := r.stack.size

/-- Push the objects among some values onto the stack. -/
def push (r : RootSet) (vs : List Value) : RootSet :=
  { r with stack := r.stack ++ (vs.filterMap Value.handle?).toArray }

/-- Drop the stack roots above a height. -/
def truncate (r : RootSet) (height : Nat) : RootSet :=
  { r with stack := r.stack.shrink height }

/-- The handles with a persistent root, each once. -/
def distinct (r : RootSet) : List Handle := r.persistent.eraseDups

/-- **All rooted handles**, which is where a collection starts: those with a persistent
root, each once, and then the stack. -/
def handles (r : RootSet) : List Handle := r.distinct ++ r.stack.toList

/-- A handle is rooted if it has a persistent root or is on the stack. -/
theorem mem_handles {r : RootSet} {h : Handle} :
    h ∈ r.handles ↔ h ∈ r.persistent ∨ h ∈ r.stack := by
  unfold handles distinct
  rw [List.mem_append, List.mem_eraseDups, Array.mem_toList_iff]

@[simp] theorem stack_protect (r : RootSet) (v : Value) : (r.protect v).stack = r.stack := by
  cases v <;> rfl

@[simp] theorem stack_unprotect (r : RootSet) (v : Value) :
    (r.unprotect v).stack = r.stack := by
  cases v <;> rfl

/-- Truncating to the height before a push undoes the push. -/
@[simp] theorem truncate_height_push (r : RootSet) (vs : List Value) :
    (r.push vs).truncate r.height = r := by
  simp [push, truncate, height]

end RootSet

end EmbeddedScript
