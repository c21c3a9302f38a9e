import EmbeddedScript.Program

/-!
# Crossing between script and native code

Primitives are copied. Objects never are: a bound object on its way into script
is wrapped by a host wrapper around an adapter, and a script object on its way
out is stood for by a proxy. Each is unwrapped again on the way back, so an
object that makes a round trip comes back as itself.
-/

namespace EmbeddedScript.Program

variable {κ α : Type}

/-- Own the share of a native value for the length of a program. -/
def owningValue (v : NativeValue) (body : Program κ α) : Program κ α :=
  match v.object? with
  | some id => owning (.native id) body
  | none => body

/-- **Out of script.** The result owns its share. A handle is taken as it is, even
a stale one; its proxy roots it for as long as the proxy lives. -/
def toNative (e : EngineId) (registry : RegistryId) (v : Value) : Program κ NativeValue :=
  match v with
  | .undefined => pure .void
  | .null => pure .null
  | .bool b => pure (.bool b)
  | .number n => pure (.double n)
  | .string s => pure (.string s)
  | .object _ => do
    match ← op (.boundOf e v) with
    | some bound => pure (.object bound)
    | none =>
      let root ← op (.root e v)
      let id ← op (.spawn (.proxy ⟨root, registry⟩))
      pure (.object id)

/-- Several values out of script, in order. -/
def toNatives (e : EngineId) (registry : RegistryId) : List Value → Program κ (List NativeValue)
  | [] => pure []
  | v :: rest => do
    let first ← toNative e registry v
    let others ← toNatives e registry rest
    pure (first :: others)

/-- **A bound object into script**: a proxy is the value it stands for, and any
other object is wrapped anew. -/
def expose (e : EngineId) (registry : RegistryId) (bound : NativeId) :
    Program κ (Except EngineError Value) := do
  match ← op (.look bound) with
  | some (.proxy p) => pure (.ok p.root.value)
  | _ =>
    op (.retain bound)
    let adapter ← op (.spawn (.adapter { bound := bound, registry := registry }))
    op (.createHost e adapter)

/-- **Into script.** The native value is lent. The result is not rooted. -/
def toScript (e : EngineId) (registry : RegistryId) (v : NativeValue) :
    Program κ (Except EngineError Value) :=
  match v with
  | .void => pure (.ok .undefined)
  | .null => pure (.ok .null)
  | .bool b => pure (.ok (.bool b))
  | .int32 i => pure (.ok (.number (Double.ofInt i.toInt)))
  | .double d => pure (.ok (.number d))
  | .string s => pure (.ok (.string s))
  | .object bound => expose e registry bound

/-- Several values into script, in order, up to the first that fails. -/
def toScripts (e : EngineId) (registry : RegistryId) :
    List NativeValue → Program κ (Except EngineError (List Value))
  | [] => pure (.ok [])
  | v :: rest => do
    match ← toScript e registry v with
    | .error err => pure (.error err)
    | .ok first =>
      match ← toScripts e registry rest with
      | .error err => pure (.error err)
      | .ok others => pure (.ok (first :: others))

end EmbeddedScript.Program
