import EmbeddedScript.Bridge.ScriptValue

/-!
# Proxies

A proxy is the bound object through which native code sees a script value. It
reads and writes the value's properties, calls its methods, or calls the value
itself, and passing it back into script gives the value. Failures of reading and
writing are not passed on: reading gives nothing, and writing does nothing.
-/

namespace EmbeddedScript.Proxy

variable {κ : Type}

open Program

/-- The script value that a proxy holds. -/
def subject (p : Proxy) : ScriptValue := { root := p.root }

/-- The engine of the value. -/
def engine (p : Proxy) : EngineId := p.root.engine

/-- The value. -/
def value (p : Proxy) : Value := p.root.value

/-- The value's own property names; none when they cannot be listed. -/
def names (p : Proxy) : Program κ (List String) := do
  match ← op (.names p.engine p.value) with
  | .ok names => pure names
  | .error _ => pure []

/-- **Call a function** with the value as the receiver. An exception is reported,
and described to the caller. -/
def callWith (p : Proxy) (callee : Value) (args : List NativeValue) :
    Program κ (Except NativeError NativeValue) := do
  match ← toScripts p.engine p.registry args with
  | .error err => pure (.error (.argumentError (BridgeError.engine err).message))
  | .ok args =>
    match ← op (.call p.engine callee p.value args) with
    | .ok result => .ok <$> toNative p.engine p.registry result
    | .error (.exception thrown) =>
      let text ← op (.describe p.engine (.exception thrown))
      op (.report p.engine (.exception thrown))
      pure (.error (.invocationFailed text))
    | .error err => pure (.error (.invocationFailed err.message))

/-- **What a proxy answers as a bound object.** -/
def answer (p : Proxy) : (r : BoundRequest) → Program κ r.Reply
  | .hasMethod name => do
    match ← op (.get p.engine p.value name) with
    | .ok member => return (← op (.kind p.engine member)) = some .function
    | .error _ => return false
  | .hasProperty name => do return (← p.names).contains name
  | .invokeMethod name args => do
    match ← op (.get p.engine p.value name) with
    | .error err => return .error (.invocationFailed err.message)
    | .ok method =>
      if (← op (.kind p.engine method)) = some .function then
        let root ← op (.root p.engine method)
        owning (.root root) (p.callWith method args)
      else return .error (.notFound name)
  | .invoke args => do
    if ← p.subject.isFunction then p.callWith p.value args
    else return .error .notCallable
  | .isFunction => p.subject.isFunction
  | .getProperty name => do
    match ← op (.get p.engine p.value name) with
    | .ok v => toNative p.engine p.registry v
    | .error _ => return .void
  | .setProperty name v =>
    owningValue v do
      match ← toScript p.engine p.registry v with
      | .ok v =>
        let _ ← op (.set p.engine p.value name v)
        return ()
      | .error _ => return ()
  | .stringValue => op (.display p.engine p.value)
  | .properties => p.names

end EmbeddedScript.Proxy
