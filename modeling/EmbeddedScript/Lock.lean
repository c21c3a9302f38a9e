/-!
# The exclusivity lock

The lock records whether native code may touch the engine. It is reentrant, so
its state is a depth. Two kinds of guard change it and are undone when they are
dropped: a **level** adds one, and a **release** sets the depth to zero and
remembers what to restore. A release restores an absolute depth, not a
difference, so guards that overlap without nesting interact.

A depth is a number without bound here, where a word of 32 bits is meant. The two
agree for as long as fewer than `2 ^ 32` levels are taken at once, because no depth
exceeds the number of levels alive (`Guarded.depths_lt_of_levels_lt`).
-/

namespace EmbeddedScript

/-- **The state of the lock**: how many levels are taken. -/
structure Lock where
  /-- The number of levels taken. -/
  depth : Nat := 0
deriving DecidableEq, Inhabited

/-- **A guard**, by what dropping it does. -/
inductive Guard where
  /-- One level of the lock; dropping it gives the level back. -/
  | level
  /-- The lock is released; dropping the guard restores this depth. -/
  | release (saved : Nat)
deriving DecidableEq

namespace Lock

/-- Some level is taken. -/
def isHeld (l : Lock) : Bool := 0 < l.depth

/-- The lock after a level is taken. -/
def take (l : Lock) : Lock := ⟨l.depth + 1⟩

/-- The lock after every level is released. -/
def dropAll (_ : Lock) : Lock := ⟨0⟩

/-- The lock after a guard is dropped. -/
def undo (l : Lock) : Guard → Lock
  | .level => ⟨l.depth - 1⟩
  | .release saved => ⟨saved⟩

/-- Giving back a level that was just taken changes nothing. -/
@[simp] theorem undo_level_take (l : Lock) : l.take.undo .level = l := rfl

/-- Restoring right after a release changes nothing. -/
@[simp] theorem undo_release_dropAll (l : Lock) : l.dropAll.undo (.release l.depth) = l := rfl

end Lock

/-- The depth that a guard will restore, if it is a release. -/
def Guard.saved? : Guard → Option Nat
  | level => none
  | release saved => some saved

end EmbeddedScript
