import EmbeddedScript.Session.Basic

/-!
# Steps on script values

A script value stays in its variable while it is operated on; an operation that
replaces what it holds puts the new one back. Values that are given to a script
value are held as script values of their own for the length of the step.
-/

namespace EmbeddedScript.Session

/-- Hold a value. -/
def adopt (into : Option String) (v : Value) : Step Report := do
  yieldScript into (← perform (ScriptValue.adopt (← currentEngine) v))

/-- Hold the value of a script value once more. -/
def cloneScript (into : Option String) (s : ScriptValue) : Step Report := do
  yieldScript into (← perform s.clone)

/-- Make a script value a view of another one. -/
def assignScript (name : String) (other : ScriptValue) : Step Report := do
  let s ← scriptVar name
  let copy ← perform other.clone
  let s ← perform (Program.owning (.root copy.root) (s.assign copy))
  assign name (.script s)
  showRoots s.engine s.value

/-- Hold a primitive instead. -/
def setScript (name : String) (v : Value) : Step Report := do
  updateScript name (← perform ((← scriptVar name).replace v))

/-- What a script value says of itself. -/
def scriptInfo (s : ScriptValue) : Step Report := do
  let t ← perform s.type
  return .record [
    ("type", .text t.name),
    ("undefined", .bool (s.value = .undefined)),
    ("null", .bool (s.value = .null)),
    ("array", .bool (t = .array)),
    ("function", .bool (t = .function)),
    ("object_like", .bool t.isObjectLike),
    ("roots", ← showRoots s.engine s.value),
    ("debug", .text (← perform s.diagnostic))]

/-- The number held. -/
def scriptNumber (s : ScriptValue) : Step Report := do return .double (← perform s.number)

/-- The boolean held. -/
def scriptBool (s : ScriptValue) : Step Report := do return .bool (← perform s.bool)

/-- The string held, and its size. -/
def scriptString (s : ScriptValue) : Step Report := do
  let t ← perform s.string
  return .record [("s", .text t), ("len", .count t.utf8ByteSize)]

/-- Hold a new array instead. -/
def setArray (name : String) (length : Nat) : Step Report := do
  updateScript name (← attemptEngine (← perform ((← scriptVar name).setArrayType length)))

/-- Hold a new object instead. -/
def setObject (name : String) : Step Report := do
  updateScript name (← attemptEngine (← perform (← scriptVar name).setObjectType))

/-- Write an element. -/
def setElement (s : ScriptValue) (i : Nat) (v : Value) : Step Report := do
  attemptEngine (← holding [v] (s.setArrayValue i v))
  return .ok

/-- Write elements from the first on. -/
def setElements (s : ScriptValue) (vs : List Value) : Step Report := do
  attemptEngine (← holding vs (s.setArrayValues 0 vs))
  return .ok

/-- Append an element. -/
def push (s : ScriptValue) (v : Value) : Step Report := do
  return .count (← attemptEngine (← holding [v] (s.push v)))

/-- Remove the last element. -/
def pop (into : Option String) (s : ScriptValue) : Step Report := do
  yieldScript into (← attemptBridge (← perform s.pop))

/-- Read an element. -/
def element (into : Option String) (s : ScriptValue) (i : Nat) : Step Report := do
  yieldScript into (← attemptBridge (← perform (s.arrayValue i)))

/-- The length of an array. -/
def elementCount (s : ScriptValue) : Step Report := do
  return .count (← attemptEngine (← perform s.arrayLength))

/-- Write a property. -/
def setProperty (s : ScriptValue) (name : String) (v : Value) : Step Report := do
  attemptEngine (← holding [v] (s.setProperty name v))
  return .ok

/-- Read a property. -/
def property (into : Option String) (s : ScriptValue) (name : String) : Step Report := do
  match ← attemptBridge (← perform (s.property name)) with
  | some t => yieldScript into t
  | none => return .none

/-- Call the function held. -/
def callScript (into : Option String) (s : ScriptValue) (args : List Value) : Step Report := do
  yieldScript into (← attemptBridge (← holding args (s.call args)))

/-! ## Iteration -/

/-- **Write under a cursor and read there**, in this order; a write that fails is
not followed by a read. -/
def visit (c : Cursor) (name : String) (written : Option Value) :
    Step (Except EngineError Root) := do
  match written with
  | none => perform (c.value name)
  | some v =>
    match ← holding [v] (c.setValue name v) with
    | .ok _ => perform (c.value name)
    | .error err => return .error err

/-- Show where a script value's cursor stands, and what is there. -/
def showCursor (s : ScriptValue) (written : Option Value) : Step Report := do
  match s.current? with
  | none => return .none
  | some (c, name) =>
    let value ← match ← visit c name written with
      | .ok root => do
        let r ← showIn root.engine root.value
        op (.unroot root)
        pure r
      | .error err => showBridgeError (.engine err)
    return .record [("key", .text name), ("len", .count c.names.length),
      ("empty", .bool c.names.isEmpty), ("value", value)]

/-- Start an iteration. -/
def first (name : String) (written : Option Value) : Step Report := do
  let s ← attemptEngine (← perform (← scriptVar name).first)
  assign name (.script s)
  showCursor s written

/-- Go on with an iteration. -/
def next (name : String) (written : Option Value) : Step Report := do
  let s := (← scriptVar name).next
  assign name (.script s)
  showCursor s written

end EmbeddedScript.Session
