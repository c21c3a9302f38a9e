import EmbeddedScript.Lock
import EmbeddedScript.Session.Report

/-!
# Sessions on a lock

A lock with named guards. Taking a guard under a name that is in use drops the
old guard after the new one has changed the lock.
-/

namespace EmbeddedScript

/-- **A lock and its named guards.** -/
structure GuardSession where
  /-- The lock. -/
  lock : Lock := {}
  /-- The guards. -/
  guards : List (String × Guard) := []

namespace GuardSession

/-- The guard of a name. -/
def guard? (s : GuardSession) (name : String) : Option Guard := s.guards.lookup name

/-- The session after a guard of a name, if there was one, is dropped. -/
def undo (s : GuardSession) (g : Option Guard) : GuardSession :=
  { s with lock := (g.map s.lock.undo).getD s.lock }

/-- Keep a guard that has changed the lock. -/
def store (s : GuardSession) (name : String) (lock : Lock) (g : Guard) : GuardSession :=
  ({ lock := lock, guards := (name, g) :: s.guards.filter (·.1 ≠ name) } : GuardSession).undo
    (s.guard? name)

/-- Take a level. -/
def take (s : GuardSession) (name : String) : GuardSession := s.store name s.lock.take .level

/-- Release the lock. -/
def dropAll (s : GuardSession) (name : String) : GuardSession :=
  s.store name s.lock.dropAll (.release s.lock.depth)

/-- Drop a guard. -/
def release (s : GuardSession) (name : String) : GuardSession :=
  ({ s with guards := s.guards.filter (·.1 ≠ name) } : GuardSession).undo (s.guard? name)

/-- The depth that a guard will restore. -/
def saved? (s : GuardSession) (name : String) : Option Nat := (s.guard? name).bind Guard.saved?

/-- How the lock stands, beside the report of a step. -/
def answer (s : GuardSession) (r : Report) : Report :=
  .record [("r", r), ("depth", .count s.lock.depth), ("held", .bool s.lock.isHeld)]

end GuardSession

end EmbeddedScript
