import EmbeddedScript.Session.Basic

/-!
# Steps through the bridge

Bridges, the conversion of values, the classes of bound objects and their
members, and adapters asked directly or as the hosts that they are.
-/

namespace EmbeddedScript

/-- **Look up the classes of objects that are gone at once**, some times over. -/
def Program.churnClasses (r : RegistryId) : Nat → Program Scripted Unit
  | 0 => pure ()
  | n + 1 => do
    let id ← op (.spawn (.custom .minimal))
    let _ ← op (.classFor r id)
    op (.release id)
    churnClasses r n

namespace Session

/-! ## Bridges and conversion -/

/-- Make a bridge. -/
def bridge (into : Option String) (capacity : Option Nat) : Step Report := do
  let e ← currentEngine
  let b ← perform (Bridge.init e (capacity.getD Bridge.defaultCapacity))
  keep into (.bridge b)
  return .record [("registry_capacity", .count b.capacity), ("same_engine", .bool (b.engine = e))]

/-- Tear a bridge down; its registry stays. -/
def shutdown (into : Option String) (name : String) : Step Report := do
  let b ← bridgeVar name
  forget name
  perform b.shutdown
  let size ← op (.registrySize b.registry)
  keep into (.registry b.registry)
  return .count size

/-- A new script value of a bridge. -/
def bridgeValue (into : Option String) (b : Bridge) : Step Report := do
  yieldScript into (← perform b.value)

/-- Expose a bound object. -/
def expose (into : Option String) (b : Bridge) (id : NativeId) : Step Report := do
  yieldScript into (← attemptBridge (← perform (b.expose id)))

/-- Convert a native value for script through a bridge. -/
def bridgeToScript (into : Option String) (b : Bridge) (v : NativeValue) : Step Report := do
  yieldScript into (← attemptBridge (← perform (Program.owningValue v (b.toScript v))))

/-- Convert a native value for script, in an engine. -/
def toScript (into : Option String) (e : EngineId) (r : RegistryId) (v : NativeValue) :
    Step Report := do
  let s ← perform (Program.owningValue v (Program.toScriptValue e r v))
  yieldScript into (← attemptBridge s)

/-- Convert a native value for script, in the current engine, and do not root it. -/
def toScriptUnrooted (into : Option String) (r : RegistryId) (v : NativeValue) :
    Step Report := do
  let e ← currentEngine
  yieldValue into (← attemptEngine (← perform (Program.owningValue v (Program.toScript e r v))))

/-- Convert a value for native code. -/
def toNative (into : Option String) (r : RegistryId) (v : Value) : Step Report := do
  yieldNative into (← perform (Program.toNative (← currentEngine) r v))

/-- Convert a held value for native code through a bridge. -/
def bridgeToNative (into : Option String) (b : Bridge) (v : Value) : Step Report := do
  let e ← currentEngine
  yieldNative into (← perform do
    let s ← ScriptValue.adopt e v
    Program.owning (.root s.root) (b.toNative s))

/-! ## Registries and classes -/

/-- Make a registry. -/
def registry (into : Option String) (room : Nat) : Step Report := do
  keep into (.registry (← perform (Program.makeRegistry room)))
  return .ok

/-- The size of a registry. -/
def registrySize (r : RegistryId) : Step Report := do
  let n ← op (.registrySize r)
  return .record [("len", .count n), ("empty", .bool (n = 0))]

/-- Drop every class of a registry. -/
def finalizeRegistry (r : RegistryId) : Step Report := do
  op (.finalizeRegistry r)
  return .ok

/-- Look up the classes of objects that are gone at once. -/
def churnClasses (r : RegistryId) (n : Nat) : Step Report := do
  perform (Program.churnClasses r n)
  return .ok

/-- The numbers of methods and fields that a class has confirmed. -/
def classCounts (c : ClassId) : Step Report := do
  let cls ← op (.reflected c)
  return .record [("methods", .count cls.methods.size), ("fields", .count cls.fields.size)]

/-- Keep a class and show it. -/
def yieldClass (into : Option String) (c : ClassId) : Step Report := do
  keep into (.cls c)
  classCounts c

/-- The class of a bound object in a registry. -/
def classOf (into : Option String) (r : RegistryId) (id : NativeId) : Step Report := do
  yieldClass into (← op (.classFor r id))

/-- The class of an adapter. -/
def adapterClass (into : Option String) (host : String) : Step Report := do
  yieldClass into (← op (.adapterClass (← adapterVar host).1))

/-- Make a class. -/
def newClass (into : Option String) : Step Report := do
  keep into (.cls (← op .newClass))
  return .ok

/-- The methods of a name in a class, as an adapter finds them. -/
def methodsNamed (into : Option String) (c : ClassId) (a : Adapter) (name : String) :
    Step Report := do
  let d ← perform (MemberKind.method.find c (← currentEngine) a.bound name)
  keep into (.methods d.toList)
  return .texts (d.toList.map (·.name))

/-- The field of a name in a class, as an adapter finds it. -/
def fieldNamed (into : Option String) (c : ClassId) (a : Adapter) (name : String) :
    Step Report := do
  match ← perform (MemberKind.field.find c (← currentEngine) a.bound name) with
  | some d =>
    keep into (.field d)
    return .text d.name
  | none => return .none

/-- Whether two descriptors are the same, and whether they are equal. -/
def sameMember (a b : Descriptor) : Report :=
  .record [("ptr", .bool (a = b)), ("eq", .bool (a.name = b.name))]

/-- Descriptors compared in pairs. -/
def sameMembers (as bs : List Descriptor) : Report :=
  .list (List.zipWith sameMember as bs)

/-! ## Adapters -/

/-- Keep what a bridge operation holds, and show it. -/
def yieldHeld (into : Option String) (r : Except BridgeError ScriptValue) : Step Report := do
  yieldScript into (← attemptBridge r)

/-- Read a field. -/
def fieldGet (into : Option String) (d : Descriptor) (a : Adapter) : Step Report := do
  yieldHeld into (← perform (a.fieldValue (← currentEngine) d))

/-- Write a field. -/
def fieldSet (d : Descriptor) (a : Adapter) (v : Value) : Step Report := do
  perform (a.setFieldValue (← currentEngine) d v)
  return .ok

/-- Invoke the first of some methods. -/
def invokeFirst (into : Option String) (ds : List Descriptor) (a : Adapter) (args : List Value) :
    Step Report := do
  match ds with
  | d :: _ => yieldHeld into (← perform (a.invokeNamed (← currentEngine) d.name args))
  | [] => throw (.mistake "there is no method")

/-- Make an adapter. -/
def adapter (into : Option String) (bound : NativeId) (r : RegistryId) : Step Report := do
  op (.retain bound)
  keep into (.host (← op (.spawn (.adapter { bound := bound, registry := r }))))
  return .ok

/-- The host behind a wrapper. -/
def hostOf (into : Option String) (v : Value) : Step Report := do
  match ← op (.hostOf (← currentEngine) v) with
  | some id =>
    keep into (.host id)
    return .ok
  | none => return .none

/-- Make a wrapper of a host. -/
def wrap (into : Option String) (host : NativeId) : Step Report := do
  op (.retain host)
  yieldValue into (← attempt (← op (.createHost (← currentEngine) host)))

/-- What an adapter says of itself. -/
def adapterInfo (a : Adapter) : Step Report := do
  let callable ← op (.ask a.bound (.bound .isFunction))
  let size ← op (.registrySize a.registry)
  return .record [("callable", .bool callable), ("truthy", .bool true),
    ("bound", ← showNative (.object a.bound)), ("registry_len", .count size)]

/-- Call the bound object of an adapter. -/
def adapterCall (into : Option String) (a : Adapter) (args : List Value) : Step Report := do
  yieldHeld into (← perform (a.invoke (← currentEngine) args))

/-- Invoke the one method among some descriptors. -/
def adapterInvoke (into : Option String) (a : Adapter) (ds : List Descriptor)
    (args : List Value) : Step Report := do
  yieldHeld into (← perform (a.invokeMethod (← currentEngine) ds args))

/-- Read a property through an adapter. -/
def adapterGet (into : Option String) (host name : String) : Step Report := do
  let (id, a) ← adapterVar host
  match ← attemptBridge (← perform (Adapter.getProperty id a (← currentEngine) name)) with
  | some s => yieldScript into s
  | none => return .none

/-- Write a property through an adapter. -/
def adapterSet (host name : String) (v : Value) : Step Report := do
  let (id, a) ← adapterVar host
  return .bool (← perform (Adapter.setProperty id a (← currentEngine) name v))

/-- The property names that an adapter contributes. -/
def adapterKeys (a : Adapter) : Step Report := do
  return .texts (← perform (a.propertyNames (← currentEngine)))

/-- The primitive form that an adapter gives. -/
def adapterPrimitive (into : Option String) (a : Adapter) (hint : Hint) : Step Report := do
  yieldValue into (← perform (a.toPrimitive hint))

/-! ## Hosts -/

/-- Ask a host on behalf of the current engine. -/
def askHost (id : NativeId) (r : HostRequest) : Step r.Reply := do
  op (.ask id (.host (← currentEngine) r))

/-- Read a property of a host. -/
def hostGet (into : Option String) (id : NativeId) (name : String) : Step Report := do
  match ← attempt (← askHost id (.getProperty name)) with
  | some v => yieldValue into v
  | none => return .none

/-- Write a property of a host. -/
def hostSet (id : NativeId) (name : String) (v : Value) : Step Report := do
  return .bool (← attempt (← askHost id (.setProperty name v)))

/-- Whether a name is a method of a host. -/
def hostHasMethod (id : NativeId) (name : String) : Step Report := do
  return .bool (← askHost id (.hasMethod name))

/-- Invoke a method of a host. -/
def hostInvoke (into : Option String) (id : NativeId) (name : String) (args : List Value) :
    Step Report := do
  yieldValue into (← attempt (← askHost id (.invokeMethod name args)))

/-- Call a host. -/
def hostCall (into : Option String) (id : NativeId) (args : List Value) : Step Report := do
  yieldValue into (← attempt (← askHost id (.call args)))

end Session

end EmbeddedScript
