import EmbeddedScript.Number.Decimal
import EmbeddedScript.Text.Quoted

/-!
# Script values

A value is a primitive, carried inline, or a **handle** to an object in an
engine's heap. A handle names a slot and the generation the slot had when the
object was allocated, so that a handle which outlives its object is told apart
from a handle to whatever the slot holds next. A handle does not say which
engine it belongs to.

Since numbers are equal exactly when their bits are, equality of values *is*
identity: the same primitive, or the same slot at the same generation.
-/

namespace EmbeddedScript

/-- **A reference to a heap slot.** -/
structure Handle where
  /-- The slot. -/
  index : Nat
  /-- The slot's generation when the object was allocated; it wraps around. -/
  generation : UInt32
deriving DecidableEq, Hashable, Inhabited

/-- **A script value.** -/
inductive Value where
  /-- The value `undefined`. -/
  | undefined
  /-- The value `null`. -/
  | null
  /-- A boolean. -/
  | bool (b : Bool)
  /-- A number. -/
  | number (n : Double)
  /-- A string. -/
  | string (s : String)
  /-- An object in a heap. -/
  | object (h : Handle)
deriving DecidableEq, Inhabited

/-- What a conversion to a primitive should prefer. -/
inductive Hint where
  /-- No preference. -/
  | default
  /-- A number. -/
  | number
  /-- A string. -/
  | string
deriving DecidableEq

/-- The coarse classification of a live object. -/
inductive ObjectKind where
  /-- A plain object. -/
  | plain
  /-- An array. -/
  | array
  /-- Anything that can be called. -/
  | function
  /-- A host wrapper that cannot be called. -/
  | host
deriving DecidableEq

/-- The name of a kind of object. -/
def ObjectKind.name : ObjectKind → String
  | plain => "Plain"
  | array => "Array"
  | function => "Function"
  | host => "Host"

namespace Handle

/-- The diagnostic text of a handle. -/
def diagnostic (h : Handle) : String :=
  s!"Handle({h.index}@{h.generation.toNat})"

end Handle

namespace Value

/-- The name of the value's type, as error messages use it. -/
def typeName : Value → String
  | undefined => "undefined"
  | null => "null"
  | bool _ => "boolean"
  | number _ => "number"
  | string _ => "string"
  | object _ => "object"

/-- The handle of an object. -/
def handle? : Value → Option Handle
  | object h => some h
  | _ => none

/-- The value is an object. -/
def isObject (v : Value) : Bool := v.handle?.isSome

/-- The boolean, if the value is one. -/
def bool? : Value → Option Bool
  | bool b => some b
  | _ => none

/-- The number, if the value is one. -/
def number? : Value → Option Double
  | number n => some n
  | _ => none

/-- The string, if the value is one. -/
def string? : Value → Option String
  | string s => some s
  | _ => none

/-- **Identity**: the same primitive, or the same slot at the same generation. -/
def sameValue (a b : Value) : Bool := a = b

/-- **Comparison**: as identity, but numbers compare numerically. -/
def looseEq : Value → Value → Bool
  | number a, number b => a.numEq b
  | a, b => a = b

/-- The diagnostic text of a value. -/
def diagnostic : Value → String
  | undefined => "Undefined"
  | null => "Null"
  | bool b => s!"Bool({b})"
  | number n => s!"Number({NumberFormat.diagnostic.write n})"
  | string s => s!"String({Quoted.encode s})"
  | object h => s!"Object({h.diagnostic})"

@[simp] theorem handle?_object (h : Handle) : (object h).handle? = some h := rfl

theorem handle?_eq_some_iff {v : Value} {h : Handle} : v.handle? = some h ↔ v = object h := by
  cases v <;> simp [handle?]

@[simp] theorem sameValue_iff {a b : Value} : a.sameValue b = true ↔ a = b := by
  simp [sameValue]

end Value

end EmbeddedScript
