import EmbeddedScript.Run
import EmbeddedScript.Scripted.Routine

/-!
# Scripted natives

Hosts and bound objects given as data, for exercising the engine and the bridge.
A scripted host has properties and methods that are routines. A scripted bound
object – a **probe** – has fields and methods that are **actions** on native
values. Both write down what they were asked before they answer, with the depth
of the lock at that moment.

A probe owns the native values it was made with, those written to its fields and
the one it was told to keep; they are let go of when they are overwritten and
when the probe has lost its last owner.
-/

namespace EmbeddedScript

/-- **What a probe does** with the arguments of a call. The first argument is
`void` when there is none; the others are the rest. -/
inductive Action where
  /-- Nothing. -/
  | nothing
  /-- The first argument. -/
  | echo
  /-- The number of arguments. -/
  | count
  /-- A fixed value. -/
  | constant (v : NativeValue)
  /-- Fail. -/
  | fail (err : NativeError)
  /-- The sum of the arguments, all of which must be numbers. -/
  | sum
  /-- The arguments joined, all of which must be strings. -/
  | concat
  /-- Whether all arguments are true, all of which must be booleans. -/
  | and
  /-- The names of the arguments' types. -/
  | types
  /-- Keep the first argument, in place of what was kept before. -/
  | keep
  /-- What is kept. -/
  | kept
  /-- Whether the lock is held. -/
  | locked
  /-- Collect; the number of objects freed. -/
  | collect
  /-- Invoke the first argument with the rest. -/
  | invoke
  /-- Invoke a method of the first argument with the rest. -/
  | invokeMethod (name : String)
  /-- Read a property of the first argument. -/
  | get (name : String)
  /-- Write the second argument to a property of the first. -/
  | set (name : String)
  /-- What the first argument says it has under a name. -/
  | has (name : String)
  /-- The property names of the first argument. -/
  | keys
  /-- The string form of the first argument. -/
  | text

/-- The primitive form that a scripted host gives. -/
inductive PrimitiveForm where
  /-- A value. -/
  | value (v : Value)
  /-- A thrown error with a message. -/
  | throws (message : String)

/-- **A scripted host.** -/
structure HostScript where
  /-- What the host goes by in its notes. -/
  label : String
  /-- The properties, which the host neither roots nor references. -/
  props : List (String × Value)
  /-- The methods. -/
  methods : List (String × Routine)
  /-- What calling the wrapper does, if it can be called. -/
  callable : Option Routine
  /-- The names it contributes; those of its properties if not given. -/
  names : Option (List String)
  /-- The properties whose reading throws. -/
  getThrows : List String
  /-- The properties whose writing throws. -/
  setThrows : List String
  /-- The primitive form for each hint. -/
  primitives : List (Hint × PrimitiveForm)

/-- **A scripted bound object.** -/
structure Probe where
  /-- What the probe goes by in its notes. -/
  label : String
  /-- The engine whose lock it watches. -/
  engine : EngineId
  /-- The fields. -/
  fields : List (String × NativeValue)
  /-- The methods. -/
  methods : List (String × Action)
  /-- What invoking the probe does, if it is a function. -/
  callable : Option Action
  /-- The names it lists; those of its fields if not given. -/
  names : Option (List String)
  /-- The fields that cannot be written. -/
  readonly : List String
  /-- The string form. -/
  text : String
  /-- What it was told to keep. -/
  kept : NativeValue := .void

/-- **A scripted native.** -/
inductive Scripted where
  /-- The body of a function. -/
  | routine (r : Routine)
  /-- A host. -/
  | host (h : HostScript)
  /-- A bound object. -/
  | probe (p : Probe)
  /-- A bound object with one method, `ping`, and one property, `size`. -/
  | minimal

/-- What a scripted native goes by. -/
def Scripted.label : Scripted → String
  | routine _ => "routine"
  | host h => h.label
  | probe p => p.label
  | minimal => "minimal"

namespace Program

variable {κ : Type}

/-- A value as it looks in an engine now. -/
def viewed (e : EngineId) (v : Value) : Program κ View := do
  return ⟨v, ← op (.kind e v)⟩

/-- Several values as they look in an engine now. -/
def viewedAll (e : EngineId) (vs : List Value) : Program κ (List View) := vs.mapM (viewed e)

/-- A native value as it looks now. -/
def viewedNative (v : NativeValue) : Program Scripted NativeView := do
  match v with
  | .object id =>
    match ← op (.look id) with
    | some (.proxy p) => return .proxy (← viewed p.root.engine p.root.value)
    | some (.custom state) => return .bound state.label
    | _ => return .bound ""
  | v => return .plain v

/-- Several native values as they look now. -/
def viewedNatives (vs : List NativeValue) : Program Scripted (List NativeView) :=
  vs.mapM viewedNative

end Program

namespace Action

/-- The native values that an action owns. -/
def owned : Action → List NativeValue
  | constant v => [v]
  | _ => []

end Action

namespace Probe

open Program

/-- **The native values that a probe owns.** -/
def owned (p : Probe) : List NativeValue :=
  p.fields.map (·.2) ++ p.methods.flatMap (·.2.owned)
    ++ (p.callable.map Action.owned).getD [] ++ [p.kept]

/-- Let go of some native values. -/
def discardAll (vs : List NativeValue) : Program Scripted Unit := vs.forM discard

/-- Change the probe of a name. -/
def update (self : NativeId) (f : Probe → Probe) : Program Scripted Unit := do
  match ← op (.look self) with
  | some (.custom (.probe p)) => op (.become self (.probe (f p)))
  | _ => pure ()

/-- The fields with the first of a name replaced. -/
def replaceField (name : String) (v : NativeValue) :
    List (String × NativeValue) → List (String × NativeValue)
  | [] => []
  | (other, w) :: rest =>
    if other = name then (other, v) :: rest else (other, w) :: replaceField name v rest

/-- The probe with one more method. -/
def addMethod (p : Probe) (name : String) (a : Action) : Probe :=
  { p with methods := p.methods ++ [(name, a)] }

/-- The probe with one more field. -/
def addField (p : Probe) (name : String) (v : NativeValue) : Probe :=
  { p with fields := p.fields ++ [(name, v)] }

/-- The probe without the members of a name, and what they owned. -/
def removeMember (p : Probe) (name : String) : Probe × List NativeValue :=
  let (fields, otherFields) := p.fields.partition (·.1 = name)
  let (methods, otherMethods) := p.methods.partition (·.1 = name)
  ({ p with fields := otherFields, methods := otherMethods },
    fields.map (·.2) ++ methods.flatMap (·.2.owned))

/-- Take the members of a name away from the probe of a name, and let go of what
they owned. -/
def removeNamed (self : NativeId) (name : String) : Program Scripted Unit := do
  match ← op (.look self) with
  | some (.custom (.probe p)) =>
    let (p, freed) := p.removeMember name
    op (.become self (.probe p))
    discardAll freed
  | _ => pure ()

/-- Go on with the first argument, which must be an object. -/
def withObject (args : List NativeValue)
    (body : NativeId → Program Scripted (Except NativeError NativeValue)) :
    Program Scripted (Except NativeError NativeValue) :=
  match (args.getD 0 .void).expectObject with
  | .ok id => body id
  | .error err => pure (.error err)

/-- **Run an action.** -/
def act (self : NativeId) (p : Probe) (args : List NativeValue) :
    Action → Program Scripted (Except NativeError NativeValue)
  | .nothing => pure (.ok .void)
  | .echo => .ok <$> share (args.getD 0 .void)
  | .count => pure (.ok (.int32 (Int32.ofNat args.length)))
  | .constant v => .ok <$> share v
  | .fail err => pure (.error err)
  | .sum => pure do return .double ((← args.mapM (·.expectNumber)).foldl Double.add Double.zero)
  | .concat => pure do return .string (String.join (← args.mapM (·.expectString)))
  | .and => pure do return .bool ((← args.mapM (·.expectBool)).all id)
  | .types => pure (.ok (.string (",".intercalate (args.map (·.typeName)))))
  | .keep => do
    let v ← share (args.getD 0 .void)
    update self fun p => { p with kept := v }
    discard p.kept
    return .ok .void
  | .kept => .ok <$> share p.kept
  | .locked => do return .ok (.bool (0 < (← op (.lockDepth p.engine))))
  | .collect => do return .ok (.int32 (Int32.ofNat (← op (.collect p.engine)).freed))
  | .invoke => withObject args fun id => op (.ask id (.bound (.invoke (args.drop 1))))
  | .invokeMethod name =>
    withObject args fun id => op (.ask id (.bound (.invokeMethod name (args.drop 1))))
  | .get name => withObject args fun id => .ok <$> op (.ask id (.bound (.getProperty name)))
  | .set name => withObject args fun id => do
    let v ← share (args.getD 1 .void)
    op (.ask id (.bound (.setProperty name v)))
    return .ok .void
  | .has name => withObject args fun id => do
    let m ← op (.ask id (.bound (.hasMethod name)))
    let p ← op (.ask id (.bound (.hasProperty name)))
    let f ← op (.ask id (.bound .isFunction))
    return .ok (.string s!"m={m} p={p} f={f}")
  | .keys => withObject args fun id => do
    return .ok (.string (",".intercalate (← op (.ask id (.bound .properties)))))
  | .text => withObject args fun id => do
    return .ok (.string (← op (.ask id (.bound .stringValue))))

/-- Write down an event, with the depth of the lock. -/
def noteDepth (p : Probe) (items : List NoteItem) : Program Scripted Unit := do
  let depth ← op (.lockDepth p.engine)
  op (.note (.text p.label :: items ++ [.count depth]))

/-- **What a probe answers.** -/
def answer (self : NativeId) (p : Probe) : (r : BoundRequest) → Program Scripted r.Reply
  | .hasMethod name => do
    op (.note [.text p.label, .text "has_method", .text name])
    return p.methods.any (·.1 = name)
  | .hasProperty name => do
    op (.note [.text p.label, .text "has_property", .text name])
    return p.fields.any (·.1 = name)
  | .invokeMethod name args => do
    p.noteDepth [.text "invoke_method", .text name, .natives (← viewedNatives args)]
    match p.methods.lookup name with
    | some a => act self p args a
    | none => return .error (.notFound name)
  | .invoke args => do
    p.noteDepth [.text "invoke", .natives (← viewedNatives args)]
    match p.callable with
    | some a => act self p args a
    | none => return .error .notCallable
  | .isFunction => pure p.callable.isSome
  | .getProperty name => do
    p.noteDepth [.text "get", .text name]
    share ((p.fields.lookup name).getD .void)
  | .setProperty name v => do
    p.noteDepth [.text "set", .text name, .native (← viewedNative v)]
    match p.fields.lookup name with
    | some old =>
      if p.readonly.contains name then discard v
      else
        update self fun p => { p with fields := replaceField name v p.fields }
        discard old
    | none => discard v
  | .stringValue => pure p.text
  | .properties => do
    p.noteDepth [.text "properties"]
    return p.names.getD (p.fields.map (·.1))

end Probe

namespace HostScript

open Program

/-- The properties with the first of a name replaced. -/
def replaceProp (name : String) (v : Value) : List (String × Value) → List (String × Value)
  | [] => []
  | (other, w) :: rest =>
    if other = name then (other, v) :: rest else (other, w) :: replaceProp name v rest

/-- Change the host of a name. -/
def update (self : NativeId) (f : HostScript → HostScript) : Program Scripted Unit := do
  match ← op (.look self) with
  | some (.custom (.host h)) => op (.become self (.host (f h)))
  | _ => pure ()

/-- Write down an event, with the depth of the lock. -/
def noteDepth (h : HostScript) (e : EngineId) (items : List NoteItem) :
    Program Scripted Unit := do
  let depth ← op (.lockDepth e)
  op (.note (.text h.label :: items ++ [.count depth]))

/-- The name of a hint, as hosts write it down. -/
def hintName : Hint → String
  | .default => "Default"
  | .number => "Number"
  | .string => "String"

/-- **What a scripted host answers.** -/
def answer (self : NativeId) (h : HostScript) (e : EngineId) :
    (r : HostRequest) → Program Scripted r.Reply
  | .getProperty name => do
    h.noteDepth e [.text "get", .text name]
    if h.getThrows.contains name then
      return .error (← op (.raise e .error s!"get {name}"))
    else return .ok (h.props.lookup name)
  | .setProperty name v => do
    h.noteDepth e [.text "set", .text name, .value (← viewed e v)]
    if h.setThrows.contains name then
      return .error (← op (.raise e .typeError s!"set {name}"))
    else if h.props.any (·.1 = name) then
      update self fun h => { h with props := replaceProp name v h.props }
      return .ok true
    else return .ok false
  | .hasMethod name => do
    op (.note [.text h.label, .text "has_method", .text name])
    return h.methods.any (·.1 = name)
  | .invokeMethod name args => do
    h.noteDepth e [.text "invoke_method", .text name, .values (← viewedAll e args)]
    ((h.methods.lookup name).getD .nothing).run e .undefined args
  | .isCallable => pure h.callable.isSome
  | .call args => do
    h.noteDepth e [.text "call", .values (← viewedAll e args)]
    (h.callable.getD .nothing).run e .undefined args
  | .propertyNames => do
    h.noteDepth e [.text "keys"]
    return h.names.getD (h.props.map (·.1))
  | .toPrimitive hint => do
    op (.note [.text h.label, .text "to_primitive", .text (hintName hint)])
    match h.primitives.lookup hint with
    | some (.value v) => return .ok v
    | some (.throws message) => return .error (← op (.raise e .error message))
    | none => return .ok .undefined

end HostScript

namespace Scripted

open Program

/-- What the minimal bound object answers. -/
def answerMinimal : (r : BoundRequest) → Program Scripted r.Reply
  | .hasMethod name => pure (name = "ping")
  | .hasProperty name => pure (name = "size")
  | .invokeMethod name _ =>
    pure (if name = "ping" then .ok (.string "pong") else .error (.notFound name))
  | .invoke _ => pure (.error .notCallable)
  | .isFunction => pure false
  | .getProperty _ => pure (.int32 7)
  | .setProperty _ v => discard v
  | .stringValue => pure "minimal"
  | .properties => pure []

/-- **What scripted natives do.** -/
def behaviour : Behaviour Scripted where
  answer self state r :=
    match state, r with
    | routine f, .run e this args => f.run e this args
    | host h, .host e r => h.answer self e r
    | probe p, .bound r => p.answer self r
    | minimal, .bound r => answerMinimal r
    | _, _ => .panic .noAnswer
  finaliser
    | probe p => Probe.discardAll p.owned
    | _ => pure ()

end Scripted

end EmbeddedScript
