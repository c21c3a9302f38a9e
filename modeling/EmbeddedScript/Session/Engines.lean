import EmbeddedScript.Session.Basic

/-!
# Steps on an engine

Making engines, guarding their lock, rooting and collecting, building objects and
operating on them, and handling errors.
-/

namespace EmbeddedScript

namespace Program

/-- **Allocate and let go**, some times over: create an object by the given
program and stand at a safepoint. The result is how many safepoints collected,
with `collected` of them before. -/
def churn {κ : Type} (e : EngineId) (create : Program κ (Except EngineError Value))
    (collected : Nat) : Nat → Program κ (Except EngineError Nat)
  | 0 => pure (.ok collected)
  | n + 1 => do
    match ← create with
    | .error err => pure (.error err)
    | .ok _ => churn e create (collected + if ← op (.safepoint e) then 1 else 0) n

end Program

namespace Session

/-! ## Engines and locks -/

/-- Make an engine and make it current. -/
def makeEngine (gcThreshold maxHeapObjects : Option Nat) : Step Report := do
  let given : Options := {}
  let e ← op (.newEngine
    { gcThreshold := gcThreshold.getD given.gcThreshold
      maxHeapObjects := maxHeapObjects.getD given.maxHeapObjects })
  modify fun s => { s with current := e }
  let options ← op (.options e)
  return .record [("gc_threshold", .count options.gcThreshold),
    ("max_heap_objects", .count options.maxHeapObjects)]

/-- Make an engine current. -/
def useEngine (index : Nat) : Step Report := do
  modify fun s => { s with current := ⟨index⟩ }
  return .record [("same_as_first", .bool ((← currentEngine) = ⟨0⟩))]

/-- The diagnostic text of the current engine. -/
def engineText : Step Report := do
  let s ← get
  return .text (s.world.engine s.current).diagnostic

/-- Take a level of the lock. -/
def lock (into : Option String) : Step Report := do
  let e ← currentEngine
  op (.lock e)
  keep into (.guard e .level)
  showDepth

/-- Release the lock. -/
def releaseLock (into : Option String) : Step Report := do
  let e ← currentEngine
  let saved ← op (.releaseLock e)
  keep into (.guard e (.release saved))
  return .record [("saved", .count saved), ("depth", ← showDepth)]

/-- How the lock stands. -/
def lockState : Step Report := do
  let depth ← op (.lockDepth (← currentEngine))
  return .record [("depth", .count depth), ("locked", .bool (0 < depth))]

/-- Remove a variable. -/
def drop (name : String) : Step Report := do
  let had ← remove name
  return .record [("had", .bool had), ("depth", ← showDepth)]

/-! ## Roots and collection -/

/-- Protect a value. -/
def protect (v : Value) : Step Report := do
  let e ← currentEngine
  op (.protect e v)
  showRoots e v

/-- Take the protection of a value away. -/
def unprotect (v : Value) : Step Report := do
  let e ← currentEngine
  op (.unprotect e v)
  showRoots e v

/-- The number of persistent roots of a value. -/
def protectCount (v : Value) : Step Report := do showRoots (← currentEngine) v

/-- Root a value of an engine; its count is that of the current engine, which may be
another. -/
def rootIn (into : Option String) (e : EngineId) (v : Value) : Step Report := do
  keep into (.root (← op (.root e v)))
  protectCount v

/-- Root a value. -/
def root (into : Option String) (v : Value) : Step Report := do rootIn into (← currentEngine) v

/-- Root the value of a root once more. -/
def rootClone (into : Option String) (r : Root) : Step Report := rootIn into r.engine r.value

/-- Put a new root in the place of one. -/
def rootAssign (name : String) (v : Value) : Step Report := do
  let old ← rootVar name
  let new ← op (.root old.engine v)
  assign name (.root new)
  op (.unroot old)
  return .record [("old", ← protectCount old.value), ("new", ← protectCount new.value)]

/-- The diagnostic text of a root. -/
def rootText (r : Root) : Report := .text s!"Root({r.value.diagnostic})"

/-- Collect. -/
def collect : Step Report := do return .ofStats (← op (.collect (← currentEngine)))

/-- The statistics. -/
def stats : Step Report := do return .ofStats (← op (.stats (← currentEngine)))

/-- Stand at a safepoint. -/
def safepoint : Step Report := do return .bool (← op (.safepoint (← currentEngine)))

/-- The value is a primitive or a live object. -/
def isLive (v : Value) : Step Report := do return .bool (← op (.isLive (← currentEngine) v))

/-- Allocate plain objects and let go of them. -/
def churn (n : Nat) : Step Report := do
  let e ← currentEngine
  return .count (← attempt (← perform (Program.churn e (Program.op (.createObject e)) 0 n)))

/-- Allocate arrays of holes and let go of them. -/
def churnArrays (length n : Nat) : Step Report := do
  let e ← currentEngine
  return .count (← attempt (← perform (Program.churn e (Program.op (.createArray e length)) 0 n)))

/-! ## Construction -/

/-- A plain object with some properties. -/
def object (into : Option String) (props : List (String × Value)) : Step Report := do
  let e ← currentEngine
  let v ← attempt (← op (.createObject e))
  for (name, p) in props do
    attempt (← op (.set e v name p))
  yieldValue into v

/-- An array of holes. -/
def array (into : Option String) (length : Nat) : Step Report := do
  yieldValue into (← attempt (← op (.createArray (← currentEngine) length)))

/-- An array of items. -/
def arrayOf (into : Option String) (items : List Value) : Step Report := do
  yieldValue into (← attempt (← op (.createArrayOf (← currentEngine) items)))

/-- A function. -/
def function (into : Option String) (name : String) (r : Routine) : Step Report := do
  let body ← op (.spawn (.custom (.routine r)))
  yieldValue into (← attempt (← op (.createFunction (← currentEngine) name body)))

/-- A wrapper of a scripted host. -/
def host (into : Option String) (h : HostScript) : Step Report := do
  let id ← op (.spawn (.custom (.host h)))
  yieldValue into (← attempt (← op (.createHost (← currentEngine) id)))

/-! ## Operations -/

/-- The kind of a value, and what sort of host is behind it. -/
def kind (v : Value) : Step Report := do
  let e ← currentEngine
  let kind ← op (.kind e v)
  let host ← match ← op (.hostOf e v) with
    | none => pure .null
    | some id => do
      let native ← op (.look id)
      op (.release id)
      pure <| match native with
        | some (.adapter _) => .text "instance"
        | _ => .text "host"
  return .record [("kind", .option (kind.map fun k => .text k.name)), ("host", host)]

/-- Read a property. -/
def readProperty (into : Option String) (v : Value) (name : String) : Step Report := do
  yieldValue into (← attempt (← op (.get (← currentEngine) v name)))

/-- Write a property. -/
def writeProperty (v : Value) (name : String) (x : Value) : Step Report := do
  attempt (← op (.set (← currentEngine) v name x))
  return .ok

/-- The own property names. -/
def names (v : Value) : Step Report := do
  return .texts (← attempt (← op (.names (← currentEngine) v)))

/-- The length of an array. -/
def arrayLength (v : Value) : Step Report := do
  return .count (← attempt (← op (.arrayLength (← currentEngine) v)))

/-- Read an element. -/
def arrayGet (into : Option String) (v : Value) (i : Nat) : Step Report := do
  yieldValue into (← attempt (← op (.arrayGet (← currentEngine) v i)))

/-- Write an element. -/
def arraySet (v : Value) (i : Nat) (x : Value) : Step Report := do
  attempt (← op (.arraySet (← currentEngine) v i x))
  return .ok

/-- Append an element. -/
def arrayPush (v : Value) (x : Value) : Step Report := do
  return .count (← attempt (← op (.arrayPush (← currentEngine) v x)))

/-- Remove the last element. -/
def arrayPop (into : Option String) (v : Value) : Step Report := do
  yieldValue into (← attempt (← op (.arrayPop (← currentEngine) v)))

/-- Call a value. -/
def call (into : Option String) (f this : Value) (args : List Value) : Step Report := do
  yieldValue into (← attempt (← op (.call (← currentEngine) f this args)))

/-- Convert to a primitive. -/
def toPrimitive (into : Option String) (v : Value) (hint : Hint) : Step Report := do
  yieldValue into (← attempt (← op (.toPrimitive (← currentEngine) v hint)))

/-- Convert to a string. -/
def display (v : Value) : Step Report := do return .text (← op (.display (← currentEngine) v))

/-- Everything that a value says of itself. -/
def inspect (v : Value) : Report :=
  let handle (h : Handle) : Report := .list [.count h.index, .count h.generation.toNat]
  .record [
    ("type", .text v.typeName),
    ("undefined", .bool (v = .undefined)),
    ("null", .bool (v = .null)),
    ("heap", .bool v.isObject),
    ("bool", .part (v.bool?.map .bool)),
    ("number", .part (v.number?.map .double)),
    ("str", .part (v.string?.map .text)),
    ("handle", .part (v.handle?.map handle)),
    ("debug", .text v.diagnostic)]

/-- The two comparisons of values. -/
def same (a b : Value) : Report :=
  .record [("eq", .bool (a.looseEq b)), ("same_value", .bool (a.sameValue b))]

/-! ## Errors -/

/-- Build a thrown error. -/
def raise (cls : ThrownClass) (message : String) : Step EngineError := do
  op (.raise (← currentEngine) cls message)

/-- Keep an error, and the value that it throws, and show it. -/
def error (into thrownInto : Option String) (err : EngineError) : Step Report := do
  let r ← showError err
  keep into (.error err)
  match err with
  | .exception v => keep thrownInto (.value v)
  | _ => pure ()
  return r

/-- Describe an error. -/
def describe (err : EngineError) : Step Report := do
  return .text (← op (.describe (← currentEngine) err))

/-- Report an exception. -/
def report (err : EngineError) : Step Report := do
  op (.report (← currentEngine) err)
  return .ok

/-- Take the descriptions of all reported exceptions. -/
def reported : Step Report := do return .texts (← op (.takeReported (← currentEngine)))

end Session

end EmbeddedScript
