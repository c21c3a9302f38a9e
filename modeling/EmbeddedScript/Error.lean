import EmbeddedScript.Value

/-!
# Engine errors

An engine operation fails for one of four reasons. Three are faults of the
operation; the fourth, `exception`, is a script-level throw that carries the
thrown value. The wording is separate from the reason: `TypeFault.message` and
`EngineError.message`.
-/

namespace EmbeddedScript

/-- **Why a value has the wrong type** for an operation. -/
inductive TypeFault where
  /-- An object was needed; the value has this type. -/
  | notObject (type : String)
  /-- An array was needed; the object reads like this. -/
  | notArray (object : String)
  /-- An array of this length was asked for. -/
  | invalidLength (length : Nat)
  /-- The value written to an array's `length` is not a length. -/
  | invalidNewLength
  /-- The index lies beyond the longest array. -/
  | indexOutOfRange (index : Nat)
  /-- Arrays have no property of this name. -/
  | notIndex (name : String)
  /-- Host methods take no properties. -/
  | hostMethodProperty (name : String)
  /-- A fault raised by native code, in its own words. -/
  | native (message : String)
deriving DecidableEq

/-- The wording of a type fault. -/
def TypeFault.message : TypeFault → String
  | notObject type => s!"{type} is not an object"
  | notArray object => s!"{object} is not an array"
  | invalidLength length => s!"invalid array length {length}"
  | invalidNewLength => "invalid array length"
  | indexOutOfRange index => s!"array index {index} out of range"
  | notIndex name => s!"arrays only accept index keys, got '{name}'"
  | hostMethodProperty name => s!"cannot set '{name}' on a host method"
  | native message => message

/-- **Why an engine operation failed.** -/
inductive EngineError where
  /-- The handle's object has been collected. -/
  | staleHandle (h : Handle)
  /-- The operation does not apply to a value of this type. -/
  | typeError (fault : TypeFault)
  /-- The heap holds its limit of objects. -/
  | heapLimit (limit : Nat)
  /-- A script-level exception with the thrown value. -/
  | exception (thrown : Value)
deriving DecidableEq

/-- The wording of an engine error. -/
def EngineError.message : EngineError → String
  | staleHandle h => s!"Stale handle: {h.diagnostic}"
  | typeError fault => s!"Type error: {fault.message}"
  | heapLimit limit => s!"Heap limit exceeded ({limit} objects)"
  | exception _ => "Uncaught exception"

end EmbeddedScript
