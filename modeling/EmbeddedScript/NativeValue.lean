import EmbeddedScript.Heap.Object

/-!
# Native values

What native code receives, returns and hands out: primitives inline, and objects
as names of natives. A native value that is an object owns a share of it.

Natives report failure through `NativeError`; what script sees of it is decided
by the bridge.
-/

namespace EmbeddedScript

/-- **A value on the native side.** -/
inductive NativeValue where
  /-- No value. -/
  | void
  /-- The value `null`. -/
  | null
  /-- A boolean. -/
  | bool (b : Bool)
  /-- A 32-bit integer. -/
  | int32 (i : Int32)
  /-- A number. -/
  | double (d : Double)
  /-- A string. -/
  | string (s : String)
  /-- A native object. -/
  | object (id : NativeId)
deriving DecidableEq

instance : Inhabited NativeValue := ⟨.void⟩

/-- **Why a native call failed.** -/
inductive NativeError where
  /-- The call ran and produced no result. -/
  | invocationFailed (text : String)
  /-- The object is no function. -/
  | notCallable
  /-- The object has no such member. -/
  | notFound (name : String)
  /-- A value has the wrong type. -/
  | typeMismatch (expected got : String)
  /-- An argument is not acceptable. -/
  | argumentError (text : String)
deriving DecidableEq

namespace NativeError

/-- The wording of a native error. -/
def message : NativeError → String
  | invocationFailed text => s!"Invocation failed: {text}"
  | notCallable => "Object is not callable"
  | notFound name => s!"No such member: {name}"
  | typeMismatch expected got => s!"Type mismatch: expected {expected}, got {got}"
  | argumentError text => s!"Argument error: {text}"

/-- The diagnostic text of a native error. -/
def diagnostic : NativeError → String
  | invocationFailed text => s!"InvocationFailed({Quoted.encode text})"
  | notCallable => "NotCallable"
  | notFound name => s!"NotFound({Quoted.encode name})"
  | typeMismatch expected got =>
    "TypeMismatch \x7b expected: " ++ Quoted.encode expected ++ ", got: " ++ Quoted.encode got
      ++ " \x7d"
  | argumentError text => s!"ArgumentError({Quoted.encode text})"

end NativeError

namespace NativeValue

/-- The name of the value's type, as error messages use it. -/
def typeName : NativeValue → String
  | void => "void"
  | null => "null"
  | bool _ => "boolean"
  | int32 _ => "int32"
  | double _ => "double"
  | string _ => "string"
  | object _ => "object"

/-- The boolean, if the value is one. -/
def bool? : NativeValue → Option Bool
  | bool b => some b
  | _ => none

/-- The integer, if the value is one. -/
def int32? : NativeValue → Option Int32
  | int32 i => some i
  | _ => none

/-- The number, if the value is one; an integer widens to it. -/
def number? : NativeValue → Option Double
  | double d => some d
  | int32 i => some (Double.ofInt i.toInt)
  | _ => none

/-- The string, if the value is one. -/
def string? : NativeValue → Option String
  | string s => some s
  | _ => none

/-- The object, if the value is one. -/
def object? : NativeValue → Option NativeId
  | object id => some id
  | _ => none

/-- The error of a value of another type than expected. -/
def mismatch (v : NativeValue) (expected : String) : NativeError :=
  .typeMismatch expected v.typeName

/-- The number, or the mismatch. -/
def expectNumber (v : NativeValue) : Except NativeError Double :=
  (v.number?.map .ok).getD (.error (v.mismatch "number"))

/-- The string, or the mismatch. -/
def expectString (v : NativeValue) : Except NativeError String :=
  (v.string?.map .ok).getD (.error (v.mismatch "string"))

/-- The boolean, or the mismatch. -/
def expectBool (v : NativeValue) : Except NativeError Bool :=
  (v.bool?.map .ok).getD (.error (v.mismatch "boolean"))

/-- The object, or the mismatch. -/
def expectObject (v : NativeValue) : Except NativeError NativeId :=
  (v.object?.map .ok).getD (.error (v.mismatch "object"))

/-- **Comparison**: numbers compare numerically, objects by identity, and an
integer never equals a number. -/
def looseEq : NativeValue → NativeValue → Bool
  | double a, double b => a.numEq b
  | a, b => a = b

/-- The diagnostic text of a value that is not an object. -/
def diagnostic? : NativeValue → Option String
  | void => some "NativeValue::Void"
  | null => some "NativeValue::Null"
  | bool b => some s!"NativeValue::Bool({b})"
  | int32 i => some s!"NativeValue::Int32({i.toInt})"
  | double d => some s!"NativeValue::Double({NumberFormat.plain.write d})"
  | string s => some s!"NativeValue::String({Quoted.encode s})"
  | object _ => none

end NativeValue

end EmbeddedScript
