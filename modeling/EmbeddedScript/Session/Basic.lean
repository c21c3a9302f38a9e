import EmbeddedScript.Bridge.Context
import EmbeddedScript.Scripted.Native
import EmbeddedScript.Session.Report

/-!
# Sessions

A session is a world with scripted natives, a current engine and named
variables. A variable **owns** what it holds: a root, a share of a native, a guard
of a lock. Storing over a variable drops what it held before, after the new
content is in place.

A step of a session acts on it and ends in a **report**, of its result or of its
failure. A step that fails stores nothing.
-/

namespace EmbeddedScript

/-- The report of an action that was cut short. -/
def Report.ofAbort : Abort → Report
  | .panicked p => .failure "panic" p.message []
  | .tooDeep => .mistake "natives are nested too deeply"

/-- **What a variable can hold.** -/
inductive Holding where
  /-- A value, not rooted. -/
  | value (v : Value)
  /-- A root. -/
  | root (r : Root)
  /-- A script value. -/
  | script (s : ScriptValue)
  /-- A native value, with its share. -/
  | native (v : NativeValue)
  /-- A bound object, with a share of it. -/
  | bound (id : NativeId)
  /-- A host, with a share of it. -/
  | host (id : NativeId)
  /-- A class. -/
  | cls (c : ClassId)
  /-- Methods. -/
  | methods (ds : List Descriptor)
  /-- A field. -/
  | field (d : Descriptor)
  /-- A registry. -/
  | registry (r : RegistryId)
  /-- A bridge. -/
  | bridge (b : Bridge)
  /-- An error. -/
  | error (err : EngineError)
  /-- A guard of an engine's lock. -/
  | guard (e : EngineId) (g : Guard)

/-- **Drop what a variable held.** -/
def Holding.drop : Holding → Program Scripted Unit
  | root r => Program.op (.unroot r)
  | script s => s.release
  | native v => Program.discard v
  | bound id => Program.op (.release id)
  | host id => Program.op (.release id)
  | guard e g => Program.dispose (.guard e g)
  | value _ | cls _ | methods _ | field _ | registry _ | bridge _ | error _ => pure ()

/-- **A session.** -/
structure Session where
  /-- The world. -/
  world : World Scripted := {}
  /-- The current engine. -/
  current : EngineId := ⟨0⟩
  /-- The variables. -/
  vars : List (String × Holding) := []

/-- **A step of a session**; it fails with a report. -/
abbrev Step (α : Type) := ExceptT Report (StateM Session) α

namespace Session

variable {α : Type}

/-- How deeply natives may be nested in a session. -/
def depth : Nat := 65536

/-- **Run a program** in the session's world. -/
def perform (p : Program Scripted α) : Step α := do
  let s ← get
  match (Scripted.behaviour.machine depth).run p [] s.world with
  | .ok a w =>
    set { s with world := w }
    pure a
  | .error x w =>
    set { s with world := w }
    throw (.ofAbort x)

/-- Perform one operation. -/
def op (o : Op Scripted) : Step o.Reply := perform (Program.op o)

/-- The current engine. -/
def currentEngine : Step EngineId := do return (← get).current

/-! ## Variables -/

/-- Take a variable away without dropping what it held. -/
def forget (name : String) : Step Unit :=
  modify fun s => { s with vars := s.vars.filter (·.1 ≠ name) }

/-- Put something in a variable without dropping what it held. -/
def assign (name : String) (h : Holding) : Step Unit := do
  forget name
  modify fun s => { s with vars := (name, h) :: s.vars }

/-- **Store in a variable** and drop what it held before. -/
def store (name : String) (h : Holding) : Step Unit := do
  let old := (← get).vars.lookup name
  assign name h
  match old with
  | some old => perform old.drop
  | none => pure ()

/-- Store in a variable if one is named, or else drop at once. -/
def keep (into : Option String) (h : Holding) : Step Unit :=
  match into with
  | some name => store name h
  | none => perform h.drop

/-- **Remove a variable** and drop what it held; whether there was one. -/
def remove (name : String) : Step Bool := do
  match (← get).vars.lookup name with
  | some old =>
    forget name
    perform old.drop
    return true
  | none => return false

/-- What a variable holds, read in some way. -/
def read (what : String) (f : Holding → Option α) (name : String) : Step α := do
  match ((← get).vars.lookup name).bind f with
  | some a => pure a
  | none => throw (.mistake s!"{name} holds no {what}")

/-- A value, also out of a root or a script value. -/
def valueVar : String → Step Value := read "value" fun
  | .value v => some v
  | .root r => some r.value
  | .script s => some s.value
  | _ => none

/-- A native value, also out of a bound object; with a share of its own. -/
def nativeVar (name : String) : Step NativeValue := do
  let v ← read "native value" (fun
    | .native v => some v
    | .bound id => some (.object id)
    | _ => none) name
  perform (Program.share v)

/-- A root. -/
def rootVar : String → Step Root := read "root" fun
  | .root r => some r
  | _ => none

/-- A script value. -/
def scriptVar : String → Step ScriptValue := read "script value" fun
  | .script s => some s
  | _ => none

/-- A bound object. -/
def boundVar : String → Step NativeId := read "bound object" fun
  | .bound id => some id
  | _ => none

/-- A host. -/
def hostVar : String → Step NativeId := read "host" fun
  | .host id => some id
  | _ => none

/-- A host that is an adapter. -/
def adapterVar (name : String) : Step (NativeId × Adapter) := do
  let id ← hostVar name
  match ← op (.look id) with
  | some (.adapter a) => pure (id, a)
  | _ => throw (.mistake s!"{name} holds no adapter")

/-- A class. -/
def classVar : String → Step ClassId := read "class" fun
  | .cls c => some c
  | _ => none

/-- Methods. -/
def methodsVar : String → Step (List Descriptor) := read "methods" fun
  | .methods ds => some ds
  | _ => none

/-- A field. -/
def fieldVar : String → Step Descriptor := read "field" fun
  | .field d => some d
  | _ => none

/-- A bridge. -/
def bridgeVar : String → Step Bridge := read "bridge" fun
  | .bridge b => some b
  | _ => none

/-- A registry, also out of a bridge. -/
def registryVar : String → Step RegistryId := read "registry" fun
  | .registry r => some r
  | .bridge b => some b.registry
  | _ => none

/-- An error. -/
def errorVar : String → Step EngineError := read "error" fun
  | .error err => some err
  | _ => none

/-! ## Reports -/

/-- A value as it looks in an engine. -/
def showIn (e : EngineId) (v : Value) : Step Report := do
  return .value (← perform (Program.viewed e v))

/-- A value as it looks in the current engine. -/
def showValue (v : Value) : Step Report := do showIn (← currentEngine) v

/-- A native value as it looks. -/
def showNative (v : NativeValue) : Step Report := do
  return .native (← perform (Program.viewedNative v))

/-- The number of persistent roots of a value. -/
def showRoots (e : EngineId) (v : Value) : Step Report := do
  return .count (← op (.protectCount e v))

/-- The depth of the current engine's lock. -/
def showDepth : Step Report := do return .count (← op (.lockDepth (← currentEngine)))

/-- An engine error, with the thrown value and its description. -/
def showError (err : EngineError) : Step Report := do
  match err with
  | .exception thrown =>
    let view ← showValue thrown
    let text ← op (.describe (← currentEngine) err)
    return .failure (Report.engineCause err) err.message
      [("thrown", view), ("described", .text text)]
  | _ => return .ofFault err

/-- A bridge error. -/
def showBridgeError (err : BridgeError) : Step Report := do
  match err with
  | .invocation _ => return .failure "Invocation" err.message []
  | .exception _ => return .failure "BridgeException" err.message []
  | .engine inner => return .failure "Engine" err.message [("source", ← showError inner)]

/-- The result of an engine operation, or the report of its failure. -/
def attempt (r : Except EngineError α) : Step α := do
  match r with
  | .ok a => pure a
  | .error err => throw (← showError err)

/-- The result of a bridge operation, or the report of its failure. -/
def attemptBridge (r : Except BridgeError α) : Step α := do
  match r with
  | .ok a => pure a
  | .error err => throw (← showBridgeError err)

/-- The result of a bridge operation that only the engine can fail. -/
def attemptEngine (r : Except EngineError α) : Step α :=
  attemptBridge (r.mapError .engine)

/-- Keep a value and show it. -/
def yieldValue (into : Option String) (v : Value) : Step Report := do
  keep into (.value v)
  showValue v

/-- Keep a script value and show it. -/
def yieldScript (into : Option String) (s : ScriptValue) : Step Report := do
  let r ← showIn s.engine s.value
  keep into (.script s)
  return r

/-- Keep a native value and show it. -/
def yieldNative (into : Option String) (v : NativeValue) : Step Report := do
  let r ← showNative v
  keep into (.native v)
  return r

/-- Put a script value back into its variable and show it. -/
def updateScript (name : String) (s : ScriptValue) : Step Report := do
  assign name (.script s)
  showIn s.engine s.value

/-- Run a program while some values are held for it; the last is dropped first. -/
def holding (vs : List Value) (body : Program Scripted α) : Step α := do
  let e ← currentEngine
  perform (vs.foldr (fun v rest => do
    let s ← ScriptValue.adopt e v
    Program.hold (.root s.root) rest) (body.bind fun a => Program.dropping a vs.length))

/-- **Take a step**: its report, the number of live objects afterwards, and what
natives wrote down. -/
def take (step : Step Report) : StateM Session Report := do
  let r ← step.run
  let r := match r with
    | .ok r => r
    | .error r => r
  let rest : Step Report := do
    let notes ← op .takeNotes
    let live ← op (.liveObjects (← currentEngine))
    let log := if notes.isEmpty then [] else [("log", Report.list (notes.map .ofNote))]
    return .record ([("r", r), ("live", .count live)] ++ log)
  match ← rest.run with
  | .ok r => return r
  | .error r => return r

end Session

end EmbeddedScript
