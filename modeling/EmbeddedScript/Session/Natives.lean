import EmbeddedScript.Session.Basic

/-!
# Steps on native values and bound objects

A native value that is given to a step comes with a share of its own. The step
keeps it, passes it on or lets go of it.
-/

namespace EmbeddedScript.Session

/-! ## Native values -/

/-- Whether two native values are equal. -/
def nativeEq (a b : NativeValue) : Step Report := do
  perform (Probe.discardAll [a, b])
  return .bool (a.looseEq b)

/-- What a typed reading gives: a report of the result, or the native error. -/
def expected {α : Type} (report : α → Report) : Except NativeError α → Report
  | .ok a => report a
  | .error err => .ofNativeError err []

/-- Everything that a native value says of itself. -/
def nativeInspect (v : NativeValue) : Step Report := do
  let object ← if v.object?.isSome then showNative v else pure .null
  perform (Program.discard v)
  return .record [
    ("type", .text v.typeName),
    ("void", .bool (v = .void)),
    ("null", .bool (v = .null)),
    ("bool", .part (v.bool?.map .bool)),
    ("i32", .part (v.int32?.map fun i => .int i.toInt)),
    ("f64", .part (v.number?.map .double)),
    ("str", .part (v.string?.map .text)),
    ("object", object),
    ("expect_f64", expected .double v.expectNumber),
    ("expect_str", expected .text v.expectString),
    ("expect_bool", expected .bool v.expectBool),
    ("debug", .part (v.diagnostic?.map .text))]

/-- The object of a native value. -/
def nativeObject (into : Option String) (v : NativeValue) : Step Report := do
  match v.object? with
  | some id =>
    let r ← showNative v
    keep into (.bound id)
    return r
  | none => return .none

/-- Everything that a native error says of itself, and whether it is equal to
another one. -/
def nativeError (err other : NativeError) : Report :=
  .ofNativeError err [("debug", .text err.diagnostic), ("eq", .bool (err = other))]

/-! ## Bound objects -/

/-- Make a bound object. -/
def bind (into : Option String) (n : Native Scripted) : Step Report := do
  keep into (.bound (← op (.spawn n)))
  return .ok

/-- Make a probe. -/
def probe (into : Option String) (p : Probe) : Step Report := bind into (.custom (.probe p))

/-- Make a proxy of a value. -/
def proxy (into : Option String) (v : Value) (r : RegistryId) : Step Report := do
  bind into (.proxy ⟨← op (.root (← currentEngine) v), r⟩)

/-- Give a probe one more method. -/
def addMethod (id : NativeId) (name : String) (a : Action) : Step Unit :=
  perform (Probe.update id (·.addMethod name a))

/-- Give a probe one more field. -/
def addField (id : NativeId) (name : String) (v : NativeValue) : Step Unit :=
  perform (Probe.update id (·.addField name v))

/-- Ask a bound object. -/
def ask (id : NativeId) (r : BoundRequest) : Step r.Reply := op (.ask id (.bound r))

/-- What a bound object has under a name, and whether it is a function. -/
def boundHas (id : NativeId) (name : String) : Step Report := do
  return .record [("method", .bool (← ask id (.hasMethod name))),
    ("property", .bool (← ask id (.hasProperty name))),
    ("function", .bool (← ask id .isFunction))]

/-- Read a property of a bound object. -/
def boundGet (into : Option String) (id : NativeId) (name : String) : Step Report := do
  yieldNative into (← ask id (.getProperty name))

/-- Write a property of a bound object. -/
def boundSet (id : NativeId) (name : String) (v : NativeValue) : Step Report := do
  ask id (.setProperty name v)
  return .ok

/-- Invoke a bound object, or a method of it. -/
def boundInvoke (into : Option String) (id : NativeId) (method : Option String)
    (args : List NativeValue) : Step Report := do
  let outcome ← perform <| Program.owningAll args <| match method with
    | some name => Program.op (.ask id (.bound (.invokeMethod name args)))
    | none => Program.op (.ask id (.bound (.invoke args)))
  match outcome with
  | .ok v => yieldNative into v
  | .error err => throw (.ofNativeError err [])

/-- The string form of a bound object. -/
def boundString (id : NativeId) : Step Report := do return .text (← ask id .stringValue)

/-- The property names of a bound object. -/
def boundKeys (id : NativeId) : Step Report := do return .texts (← ask id .properties)

/-- The label of a bound object, and whether it lets its own type be seen. -/
def boundLabel (id : NativeId) : Step Report := do
  let recognised := match ← op (.look id) with
    | some (.custom .minimal) => false
    | _ => true
  return .record [("label", ← showNative (.object id)), ("any", .bool recognised)]

end EmbeddedScript.Session
