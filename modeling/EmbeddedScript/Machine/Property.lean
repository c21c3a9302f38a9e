import EmbeddedScript.Machine.Heap

/-!
# Arrays and properties

Reading, writing and listing. For a plain object, an array and a function these
only look at the heap. For a host wrapper the host is asked first, then – on a
read – a method of the host becomes a host method object, and last come the
wrapper's own properties. The wrapper is pinned while its host runs, together
with the value being written.
-/

namespace EmbeddedScript.Machine

variable {κ α : Type}

/-! ## Arrays -/

/-- Change the elements of an array. A fault leaves them as they were. -/
def changeArray (h : Handle) (f : Elements → Except TypeFault (α × Elements)) (heap : Heap) :
    Except EngineError α × Heap :=
  match heap.get h with
  | .error err => (.error err, heap)
  | .ok (.array els) =>
    match f els with
    | .ok (a, els) => (.ok a, heap.put h (.array els))
    | .error fault => (.error (.typeError fault), heap)
  | .ok o => (.error (.typeError (.notArray o.diagnostic)), heap)

/-- Look at the elements of an array or take one away. -/
def withArray (e : EngineId) (v : Value) (f : Elements → Except TypeFault (α × Elements)) :
    Attempt κ α := do
  let h ← Act.expectHandle v
  ExceptT.mk <| Act.writeHeap e (changeArray h f)

/-- Put a value among the elements of an array. -/
def storeElement (e : EngineId) (v value : Value)
    (f : Elements → Except TypeFault (α × Elements)) : Attempt κ α := do
  let h ← Act.expectHandle v
  ExceptT.mk <| Act.storeHeap e [value] (·.isOk) (changeArray h f)

/-- The length of an array. -/
def arrayLength (e : EngineId) (v : Value) : Attempt κ Nat :=
  withArray e v fun els => .ok (els.size, els)

/-- Read an element. -/
def arrayGet (e : EngineId) (v : Value) (i : Nat) : Attempt κ Value :=
  withArray e v fun els => .ok (Elements.read els i, els)

/-- Write an element. -/
def arraySet (e : EngineId) (v : Value) (i : Nat) (value : Value) : Attempt κ Unit :=
  storeElement e v value fun els => (Elements.store els i value).map fun els => ((), els)

/-- Append an element; the new length. -/
def arrayPush (e : EngineId) (v : Value) (value : Value) : Attempt κ Nat :=
  storeElement e v value fun els => .ok (els.size + 1, els.push (some value))

/-- Remove the last element. -/
def arrayPop (e : EngineId) (v : Value) : Attempt κ Value :=
  withArray e v fun els => .ok (Elements.pop els)

/-! ## Properties -/

/-- What reading a name of an object without a host gives. -/
def ownProperty (o : HeapObject) (name : String) : Value :=
  match o with
  | .plain props => (props.get? name).getD .undefined
  | .array els => Elements.property els name
  | .function functionName _ props =>
    if name = "name" then .string functionName else (props.get? name).getD .undefined
  | .hostMethod _ method => if name = "name" then .string method else .undefined
  | .host _ expandos => (expandos.get? name).getD .undefined

/-- **Read a property.** -/
def get (m : Machine κ) (e : EngineId) (target : Value) (name : String) : Attempt κ Value :=
  ExceptT.mk <| Act.locked e <| ExceptT.run do
    let h ← Act.expectHandle target
    match ← Act.object e h with
    | .host host _ =>
      ExceptT.mk <| m.sharing host <| Act.pinning e [target] <| ExceptT.run do
        match ← ExceptT.mk (m.askHost e host (.getProperty name)) with
        | some v => pure v
        | none =>
          if ← Act.attempt (m.askHost e host (.hasMethod name)) then
            m.allocate e (.hostMethod h name)
          else
            match ← Act.object e h with
            | .host _ expandos => pure ((expandos.get? name).getD .undefined)
            | _ => pure .undefined
    | o => pure (ownProperty o name)

/-- What an object without a host becomes when a name of it is written. -/
def withProperty (o : HeapObject) (name : String) (value : Value) :
    Except TypeFault HeapObject :=
  match o with
  | .plain props => .ok (.plain (props.set name value))
  | .array els => (Elements.setProperty els name value).map .array
  | .function functionName body props => .ok (.function functionName body (props.set name value))
  | .hostMethod _ _ => .error (.hostMethodProperty name)
  | .host host expandos => .ok (.host host (expandos.set name value))

/-- Write a property of an object without a host. The host of a wrapper is handed
back instead, since it is to be asked first. -/
def storeOwn (h : Handle) (name : String) (value : Value) (heap : Heap) :
    Except EngineError (Option NativeId) × Heap :=
  match heap.get h with
  | .error err => (.error err, heap)
  | .ok (.host host _) => (.ok (some host), heap)
  | .ok o =>
    match withProperty o name value with
    | .ok o => (.ok none, heap.put h o)
    | .error fault => (.error (.typeError fault), heap)

/-- The property was written, and the host of a wrapper was not handed back. -/
def storedOwn : Except EngineError (Option NativeId) → Bool
  | .ok none => true
  | _ => false

/-- Write one of a wrapper's own properties. -/
def storeExpando (h : Handle) (name : String) (value : Value) (heap : Heap) :
    Except EngineError Unit × Heap :=
  match heap.get h with
  | .error err => (.error err, heap)
  | .ok (.host host expandos) => (.ok (), heap.put h (.host host (expandos.set name value)))
  | .ok _ => (.ok (), heap)

/-- **Write a property.** -/
def set (m : Machine κ) (e : EngineId) (target : Value) (name : String) (value : Value) :
    Attempt κ Unit :=
  ExceptT.mk <| Act.locked e <| ExceptT.run do
    let h ← Act.expectHandle target
    match ← ExceptT.mk (Act.storeHeap e [value] storedOwn (storeOwn h name value)) with
    | none => pure ()
    | some host =>
      ExceptT.mk <| m.sharing host <| Act.pinning e [target, value] <| ExceptT.run do
        if ← ExceptT.mk (m.askHost e host (.setProperty name value)) then pure ()
        else ExceptT.mk (Act.storeHeap e [value] (·.isOk) (storeExpando h name value))

/-- The names that an object without a host lists. -/
def ownNames : HeapObject → List String
  | .plain props => props.keys
  | .array els => Elements.names els
  | .function _ _ props => props.keys
  | .hostMethod _ _ => []
  | .host _ expandos => expandos.keys

/-- **The own property names**: for a wrapper those its host contributes, and
then the wrapper's own that are not among them. -/
def names (m : Machine κ) (e : EngineId) (target : Value) : Attempt κ (List String) :=
  ExceptT.mk <| Act.locked e <| ExceptT.run do
    let h ← Act.expectHandle target
    match ← Act.object e h with
    | .host host _ =>
      ExceptT.mk <| m.sharing host <| Act.pinning e [target] <| ExceptT.run do
        let contributed ← Act.attempt (m.askHost e host .propertyNames)
        match ← Act.object e h with
        | .host _ expandos =>
          pure (contributed ++ expandos.keys.filter (!contributed.contains ·))
        | _ => pure contributed
    | o => pure (ownNames o)

end EmbeddedScript.Machine
