import EmbeddedScript.Bridge.ScriptValue

/-!
# Adapters

An adapter is the host through which script sees a bound object. It finds the
object's members name by name: a name that is not remembered is asked of the
object, and a confirmation is remembered for good in the class that the adapter
looked up once. So a member that was found stays found, and one that appears
later is still seen.

Invoking the bound object and listing its properties run with the engine's lock
fully released, since such code may take long or come back to the engine. A
bound object that fails turns into a thrown script error.
-/

namespace EmbeddedScript

/-- **The member of a name**: remembered by the class, or confirmed by the bound
object now and then remembered. -/
def MemberKind.find {κ : Type} (kind : MemberKind) (cls : ClassId) (e : EngineId)
    (bound : NativeId) (name : String) : Program κ (Option Descriptor) := do
  match ← Program.op (.cached cls kind name) with
  | some d => pure (some d)
  | none =>
    let confirmed ← match kind with
      | .method => Program.op (.ask bound (.bound (.hasMethod name)))
      | .field => Program.op (.ask bound (.bound (.hasProperty name)))
    if confirmed then
      some <$> Program.locked e (Program.op (.intern cls kind name))
    else pure none

namespace Adapter

variable {κ : Type}

open Program

/-! ## Members -/

/-- The methods of a name: at most one. -/
def methodsNamed (self : NativeId) (a : Adapter) (e : EngineId) (name : String) :
    Program κ (List Descriptor) := do
  let cls ← op (.adapterClass self)
  Option.toList <$> MemberKind.method.find cls e a.bound name

/-- The field of a name. -/
def fieldNamed (self : NativeId) (a : Adapter) (e : EngineId) (name : String) :
    Program κ (Option Descriptor) := do
  let cls ← op (.adapterClass self)
  MemberKind.field.find cls e a.bound name

/-- Read a field. -/
def fieldValue (a : Adapter) (e : EngineId) (d : Descriptor) :
    Program κ (Except BridgeError ScriptValue) := do
  let v ← op (.ask a.bound (.bound (.getProperty d.name)))
  owningValue v (toScriptValue e a.registry v)

/-- Write a field. -/
def setFieldValue (a : Adapter) (e : EngineId) (d : Descriptor) (v : Value) :
    Program κ Unit := do
  let v ← toNative e a.registry v
  op (.ask a.bound (.bound (.setProperty d.name v)))

/-! ## Invocation -/

/-- What an invocation gives: the result held, or the fault that script sees. -/
def conclude (a : Adapter) (e : EngineId) (fault : InvocationFault)
    (outcome : Except NativeError NativeValue) : Program κ (Except BridgeError ScriptValue) :=
  match outcome with
  | .ok v => owningValue v (toScriptValue e a.registry v)
  | .error _ => pure (.error (.invocation fault))

/-- **Call the bound object.** One that is no function is not invoked and yields
`undefined`. -/
def invoke (a : Adapter) (e : EngineId) (args : List Value) :
    Program κ (Except BridgeError ScriptValue) := do
  if ← op (.ask a.bound (.bound .isFunction)) then
    let args ← toNatives e a.registry args
    owningAll args do
      let outcome ← unlocked e (op (.ask a.bound (.bound (.invoke args))))
      a.conclude e .function outcome
  else .ok <$> ScriptValue.adopt e .undefined

/-- **Invoke a member of the bound object** by name. -/
def invokeNamed (a : Adapter) (e : EngineId) (name : String) (args : List Value) :
    Program κ (Except BridgeError ScriptValue) := do
  let args ← toNatives e a.registry args
  owningAll args do
    let outcome ← unlocked e (op (.ask a.bound (.bound (.invokeMethod name args))))
    a.conclude e (.method name) outcome

/-- **Invoke the one method** among some descriptors; panics when there are
several. -/
def invokeMethod (a : Adapter) (e : EngineId) (methods : List Descriptor) (args : List Value) :
    Program κ (Except BridgeError ScriptValue) :=
  match methods with
  | [] => pure (.error (.invocation .unresolved))
  | [d] => a.invokeNamed e d.name args
  | _ => .panic (.overloaded methods.length)

/-! ## Properties -/

/-- Read a property, if the bound object has the field. -/
def getProperty (self : NativeId) (a : Adapter) (e : EngineId) (name : String) :
    Program κ (Except BridgeError (Option ScriptValue)) := do
  match ← fieldNamed self a e name with
  | none => pure (.ok none)
  | some d => Except.map some <$> a.fieldValue e d

/-- Write a property, if the bound object has the field. -/
def setProperty (self : NativeId) (a : Adapter) (e : EngineId) (name : String) (v : Value) :
    Program κ Bool := do
  match ← fieldNamed self a e name with
  | none => pure false
  | some d =>
    a.setFieldValue e d v
    pure true

/-- The bound object's own property names. -/
def propertyNames (a : Adapter) (e : EngineId) : Program κ (List String) :=
  unlocked e (op (.ask a.bound (.bound .properties)))

/-- The primitive form: zero where a number is preferred, otherwise the bound
object's string form. -/
def toPrimitive (a : Adapter) (hint : Hint) : Program κ Value :=
  match hint with
  | .number => pure (.number Double.zero)
  | _ => do
    let text ← op (.ask a.bound (.bound .stringValue))
    pure (.string text)

/-! ## As a host -/

/-- What the engine throws for a bridge error. -/
def thrown (e : EngineId) (err : BridgeError) : Program κ EngineError :=
  match err with
  | .engine err => pure err
  | .invocation fault => op (.raise e .error fault.message)
  | .exception description => op (.raise e .error description)

/-- The plain value of a result, no longer held. -/
def unhold (e : EngineId) (r : Except BridgeError ScriptValue) :
    Program κ (Except EngineError Value) := do
  match r with
  | .ok s =>
    s.release
    pure (.ok s.value)
  | .error err => .error <$> thrown e err

/-- **What an adapter answers as a host.** -/
def answer (self : NativeId) (a : Adapter) (e : EngineId) :
    (r : HostRequest) → Program κ r.Reply
  | .getProperty name => do
    match ← getProperty self a e name with
    | .ok none => pure (.ok none)
    | .ok (some s) => Except.map some <$> unhold e (.ok s)
    | .error err => .error <$> thrown e err
  | .setProperty name v => .ok <$> setProperty self a e name v
  | .hasMethod name => do return !(← methodsNamed self a e name).isEmpty
  | .invokeMethod name args => do
    let methods ← methodsNamed self a e name
    unhold e (← a.invokeMethod e methods args)
  | .isCallable => op (.ask a.bound (.bound .isFunction))
  | .call args => do unhold e (← a.invoke e args)
  | .propertyNames => a.propertyNames e
  | .toPrimitive hint => .ok <$> a.toPrimitive hint

end Adapter

end EmbeddedScript
