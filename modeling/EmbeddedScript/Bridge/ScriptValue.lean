import EmbeddedScript.Bridge.Crossing
import EmbeddedScript.Bridge.Error

/-!
# Script values held by native code

The collector does not see what native code holds, so a `ScriptValue` owns a root
of its value for as long as it lives. Replacing the value roots the new one before
the old root is dropped, and replacing a value by itself does nothing. Clones are
views of the same object, each with a root of its own.

A script value can carry a **cursor**: a snapshot of the object's property names
and a position in it. The names are fixed, but values are read and written live.
The cursor goes when the value is replaced by another one.

Typed operations panic on a value of another type; callers look at the type
first.
-/

namespace EmbeddedScript

/-- **The type of a held value**, as its holder sees it. -/
inductive ValueType where
  /-- A number. -/
  | number
  /-- A boolean. -/
  | boolean
  /-- A string. -/
  | string
  /-- An array. -/
  | array
  /-- An object that can be called. -/
  | function
  /-- Any other object. -/
  | object
  /-- The value `undefined`. -/
  | undefined
  /-- The value `null`. -/
  | null
  /-- A handle whose object is gone. -/
  | unknown
deriving DecidableEq

/-- The name of a type. -/
def ValueType.name : ValueType → String
  | number => "Number"
  | boolean => "Boolean"
  | string => "String"
  | array => "Array"
  | function => "Function"
  | object => "Object"
  | undefined => "Undefined"
  | null => "Null"
  | unknown => "Unknown"

/-- The type of a value, given the kind of the object it denotes. -/
def ValueType.of (v : Value) (kind : Option ObjectKind) : ValueType :=
  match v with
  | .number _ => number
  | .bool _ => boolean
  | .string _ => string
  | .undefined => undefined
  | .null => null
  | .object _ =>
    match kind with
    | some .array => array
    | some .function => function
    | some .plain | some .host => object
    | none => unknown

/-- The type has properties. -/
def ValueType.isObjectLike (t : ValueType) : Bool :=
  t = object || t = array || t = function

/-- **A position in a snapshot of an object's property names.** -/
structure Cursor where
  /-- The engine of the object. -/
  engine : EngineId
  /-- The object. -/
  subject : Value
  /-- The names when the cursor was made. -/
  names : List String
  /-- The position; past the end it stays at the number of names. -/
  position : Nat := 0
deriving DecidableEq

namespace Cursor

/-- The name at the position. -/
def name? (c : Cursor) : Option String := c.names[c.position]?

/-- The cursor at the next name. -/
def advance (c : Cursor) : Cursor :=
  { c with position := min (c.position + 1) c.names.length }

/-- The value under the current name, read from the object now and rooted. -/
def value {κ : Type} (c : Cursor) (name : String) : Program κ (Except EngineError Root) := do
  match ← Program.op (.get c.engine c.subject name) with
  | .ok v => .ok <$> Program.op (.root c.engine v)
  | .error err => pure (.error err)

/-- Write a value under the current name. -/
def setValue {κ : Type} (c : Cursor) (name : String) (v : Value) :
    Program κ (Except EngineError Unit) :=
  Program.op (.set c.engine c.subject name v)

end Cursor

/-- **A script value held by native code.** -/
structure ScriptValue where
  /-- The root that keeps the value alive. -/
  root : Root
  /-- The iteration in progress. -/
  cursor : Option Cursor := none
deriving DecidableEq

namespace ScriptValue

variable {κ α : Type}

open Program

/-- The engine the value belongs to. -/
def engine (s : ScriptValue) : EngineId := s.root.engine

/-- The held value. -/
def value (s : ScriptValue) : Value := s.root.value

/-! ## Holding -/

/-- **Hold a value.** -/
def adopt (e : EngineId) (v : Value) : Program κ ScriptValue := do
  let root ← op (.root e v)
  pure { root := root }

/-- Hold the value of a result. -/
def adoptResult (e : EngineId) (r : Except EngineError Value) :
    Program κ (Except BridgeError ScriptValue) :=
  match r with
  | .ok v => .ok <$> adopt e v
  | .error err => pure (.error (.engine err))

/-- Stop holding. -/
def release (s : ScriptValue) : Program κ Unit := op (.unroot s.root)

/-- Hold the same value once more, without the cursor. -/
def clone (s : ScriptValue) : Program κ ScriptValue := adopt s.engine s.value

/-- **Hold another value instead.** -/
def replace (s : ScriptValue) (v : Value) : Program κ ScriptValue := do
  if s.value.sameValue v then pure s
  else
    let new ← adopt s.engine v
    s.release
    pure new

/-- **Become a view of another script value.** The engine stays the same. -/
def assign (s other : ScriptValue) : Program κ ScriptValue := s.replace other.value

/-- The same engine and the same value. -/
def equals (a b : ScriptValue) : Bool :=
  a.engine = b.engine && a.value.sameValue b.value

/-! ## Types -/

/-- **The type of the held value.** -/
def type (s : ScriptValue) : Program κ ValueType := do
  ValueType.of s.value <$> op (.kind s.engine s.value)

/-- The held value can be called. -/
def isFunction (s : ScriptValue) : Program κ Bool := do
  return (← s.type) = .function

/-- The diagnostic text of a script value. -/
def diagnostic (s : ScriptValue) : Program κ String := do
  let t ← s.type
  pure s!"ScriptValue \x7b type: {t.name}, value: {s.value.diagnostic} \x7d"

/-- The number held; panics on a value of another type. -/
def number (s : ScriptValue) : Program κ Double :=
  match s.value with
  | .number n => pure n
  | v => .panic (.wrongAccessor "number_value" v.typeName)

/-- The boolean held; panics on a value of another type. -/
def bool (s : ScriptValue) : Program κ Bool :=
  match s.value with
  | .bool b => pure b
  | v => .panic (.wrongAccessor "bool_value" v.typeName)

/-- The string held; panics on a value of another type. -/
def string (s : ScriptValue) : Program κ String :=
  match s.value with
  | .string t => pure t
  | v => .panic (.wrongAccessor "string_value" v.typeName)

/-- Panic with the name of the operation unless the held value's type is
accepted. -/
def expect (s : ScriptValue) (accepts : ValueType → Bool) (operation : String) :
    Program κ Unit := do
  let t ← s.type
  if accepts t then pure () else .panic (.wrongOperation operation t.name)

/-- Panic unless an array is held. -/
def expectArray (s : ScriptValue) : Program κ Unit :=
  s.expect (· = .array) "array operation"

/-- Panic unless something with properties is held. -/
def expectObject (s : ScriptValue) : Program κ Unit :=
  s.expect ValueType.isObjectLike "property operation"

/-! ## Arrays -/

/-- Hold a new array of holes. -/
def setArrayType (s : ScriptValue) (length : Nat) :
    Program κ (Except EngineError ScriptValue) := do
  match ← op (.createArray s.engine length) with
  | .ok v => .ok <$> s.replace v
  | .error err => pure (.error err)

/-- Store an element. -/
def setArrayValue (s : ScriptValue) (i : Nat) (v : Value) :
    Program κ (Except EngineError Unit) := do
  s.expectArray
  op (.arraySet s.engine s.value i v)

/-- Store elements at consecutive indices, up to the first that fails. -/
def setArrayValues (s : ScriptValue) (i : Nat) : List Value → Program κ (Except EngineError Unit)
  | [] => pure (.ok ())
  | v :: rest => do
    match ← s.setArrayValue i v with
    | .ok _ => s.setArrayValues (i + 1) rest
    | .error err => pure (.error err)

/-- Append an element; the new length. -/
def push (s : ScriptValue) (v : Value) : Program κ (Except EngineError Nat) := do
  s.expectArray
  op (.arrayPush s.engine s.value v)

/-- Remove the last element and hold it. -/
def pop (s : ScriptValue) : Program κ (Except BridgeError ScriptValue) := do
  s.expectArray
  adoptResult s.engine (← op (.arrayPop s.engine s.value))

/-- Hold the element at an index. -/
def arrayValue (s : ScriptValue) (i : Nat) : Program κ (Except BridgeError ScriptValue) := do
  s.expectArray
  adoptResult s.engine (← op (.arrayGet s.engine s.value i))

/-- The length of the array. -/
def arrayLength (s : ScriptValue) : Program κ (Except EngineError Nat) := do
  s.expectArray
  op (.arrayLength s.engine s.value)

/-! ## Objects -/

/-- Hold a new plain object. -/
def setObjectType (s : ScriptValue) : Program κ (Except EngineError ScriptValue) := do
  match ← op (.createObject s.engine) with
  | .ok v => .ok <$> s.replace v
  | .error err => pure (.error err)

/-- Store a property. -/
def setProperty (s : ScriptValue) (name : String) (v : Value) :
    Program κ (Except EngineError Unit) := do
  s.expectObject
  op (.set s.engine s.value name v)

/-- **Hold the value of a property**, if the object has it: a name that reads as
`undefined` is a property only when the object lists it. -/
def property (s : ScriptValue) (name : String) :
    Program κ (Except BridgeError (Option ScriptValue)) := do
  s.expectObject
  match ← op (.get s.engine s.value name) with
  | .error err => pure (.error (.engine err))
  | .ok .undefined =>
    match ← op (.names s.engine s.value) with
    | .error err => pure (.error (.engine err))
    | .ok names =>
      if names.contains name then .ok <$> some <$> adopt s.engine .undefined
      else pure (.ok none)
  | .ok v => .ok <$> some <$> adopt s.engine v

/-! ## Iteration -/

/-- **Start an iteration**: the script value with a cursor at the first name. -/
def first (s : ScriptValue) : Program κ (Except EngineError ScriptValue) := do
  s.expectObject
  match ← op (.names s.engine s.value) with
  | .error err => pure (.error err)
  | .ok names =>
    pure (.ok { s with cursor := some { engine := s.engine, subject := s.value, names := names } })

/-- **Go on with an iteration**: the script value with its cursor at the next
name. -/
def next (s : ScriptValue) : ScriptValue :=
  { s with cursor := s.cursor.map Cursor.advance }

/-- The cursor, as long as it stands at a name. -/
def current? (s : ScriptValue) : Option (Cursor × String) :=
  s.cursor.bind fun c => c.name?.map fun name => (c, name)

/-! ## Calls -/

/-- **Call the held function** with itself as the receiver. A thrown exception is
reported. -/
def call (s : ScriptValue) (args : List Value) : Program κ (Except BridgeError ScriptValue) := do
  s.expect (· = .function) "call"
  match ← op (.call s.engine s.value s.value args) with
  | .ok v => .ok <$> adopt s.engine v
  | .error (.exception thrown) =>
    op (.report s.engine (.exception thrown))
    let text ← op (.describe s.engine (.exception thrown))
    pure (.error (.exception text))
  | .error err => pure (.error (.engine err))

end ScriptValue

/-- Into script, and held. -/
def Program.toScriptValue {κ : Type} (e : EngineId) (registry : RegistryId) (v : NativeValue) :
    Program κ (Except BridgeError ScriptValue) := do
  ScriptValue.adoptResult e (← Program.toScript e registry v)

end EmbeddedScript
