import EmbeddedScript.Bridge.ScriptValue

/-!
# Bridges

A bridge serves one engine and owns a registry. Shutting it down drops every
class of the registry; wrappers that were made through it stay usable, and their
classes are entered anew.
-/

namespace EmbeddedScript

/-- **The native side of one engine.** -/
structure Bridge where
  /-- The engine it serves. -/
  engine : EngineId
  /-- The registry of classes. -/
  registry : RegistryId
  /-- The number of classes the registry had room for at first. -/
  capacity : Nat
deriving DecidableEq

namespace Bridge

variable {κ : Type}

open Program

/-- The room for classes that a bridge asks for by itself. -/
def defaultCapacity : Nat := 64

/-- Make a bridge. -/
def init (e : EngineId) (capacity : Nat) : Program κ Bridge := do
  return ⟨e, ← makeRegistry capacity, capacity⟩

/-- A new script value, `undefined`. -/
def value (b : Bridge) : Program κ ScriptValue := ScriptValue.adopt b.engine .undefined

/-- Expose a bound object. -/
def expose (b : Bridge) (bound : NativeId) : Program κ (Except BridgeError ScriptValue) := do
  ScriptValue.adoptResult b.engine (← Program.expose b.engine b.registry bound)

/-- Convert a native value for script. -/
def toScript (b : Bridge) (v : NativeValue) : Program κ (Except BridgeError ScriptValue) :=
  toScriptValue b.engine b.registry v

/-- Convert a script value for native code. -/
def toNative (b : Bridge) (s : ScriptValue) : Program κ NativeValue :=
  Program.toNative b.engine b.registry s.value

/-- Tear the bridge down. -/
def shutdown (b : Bridge) : Program κ Unit := op (.finalizeRegistry b.registry)

end Bridge

end EmbeddedScript
