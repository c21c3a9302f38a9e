import EmbeddedScript.Machine.Basic

/-!
# Creation, inspection and collection

The operations on an engine's heap that are not about properties: creating
objects, classifying them, and collecting. An object that the heap refuses is
dropped while the heap is still lent to its writer; objects that a collection
frees are dropped only after the heap is given back.
-/

namespace EmbeddedScript.Machine

variable {κ : Type}

/-! ## Creation -/

/-- Place an object in the heap, if there is room for it. -/
def offer (o : HeapObject) (heap : Heap) : Except EngineError Handle × Heap :=
  match heap.refusal? with
  | some err => (.error err, heap)
  | none => let (h, heap) := heap.place o; (.ok h, heap)

/-- The object that the heap took. A refused one is dropped, with the share of a native
that it owns. -/
def taken (m : Machine κ) (e : EngineId) (o : HeapObject) :
    Except EngineError Handle → Act κ (Except EngineError Value)
  | .ok h => pure (.ok (.object h))
  | .error err => do
    Act.writing e (m.releaseAll [o])
    pure (.error err)

/-- **Put an object into the heap.** -/
def allocate (m : Machine κ) (e : EngineId) (o : HeapObject) : Attempt κ Value :=
  ExceptT.mk do
    let outcome ← Act.writeHeap e (offer o)
    m.taken e o outcome

/-- Create a plain object. -/
def createObject (m : Machine κ) (e : EngineId) : Attempt κ Value :=
  m.allocate e (.plain .empty)

/-- Create an array of holes. -/
def createArray (m : Machine κ) (e : EngineId) (length : Nat) : Attempt κ Value :=
  match Elements.create length with
  | .ok els => m.allocate e (.array els)
  | .error fault => throw (.typeError fault)

/-- Create an array of items. -/
def createArrayOf (m : Machine κ) (e : EngineId) (items : List Value) : Attempt κ Value :=
  let o := .array (Elements.ofList items)
  ExceptT.mk do
    let outcome ← Act.storeHeap e items (·.isOk) (offer o)
    m.taken e o outcome

/-- Create a function. -/
def createFunction (m : Machine κ) (e : EngineId) (name : String) (body : NativeId) :
    Attempt κ Value :=
  m.allocate e (.function name body .empty)

/-- Create a host wrapper. -/
def createHost (m : Machine κ) (e : EngineId) (host : NativeId) : Attempt κ Value :=
  m.allocate e (.host host .empty)

/-! ## Inspection -/

/-- **The kind of an object.** A host says itself whether it can be called, and
is asked while the heap is being read. -/
def kind (m : Machine κ) (e : EngineId) (v : Value) : Act κ (Option ObjectKind) := do
  match v.handle? with
  | none => pure none
  | some h =>
    match ← Act.readHeap e (·.get? h) with
    | none => pure none
    | some o =>
      match o with
      | .host id _ =>
        let callable ← Act.reading e (m.askHost e id .isCallable)
        pure (some (o.kind callable))
      | _ => pure (some (o.kind false))

/-- The host behind a wrapper. -/
def host? (e : EngineId) (v : Value) : Act κ (Option NativeId) := do
  match v.handle? with
  | none => pure none
  | some h =>
    match ← Act.readHeap e (·.get? h) with
    | some (.host id _) => pure (some id)
    | _ => pure none

/-- The host behind a wrapper, with a share of it. -/
def hostOf (e : EngineId) (v : Value) : Act κ (Option NativeId) := do
  match ← host? e v with
  | some id =>
    Act.update (·.modifyOwners id (· + 1))
    pure (some id)
  | none => pure none

/-- The bound object behind a wrapper whose host is an adapter, with a share of
it. -/
def boundOf (e : EngineId) (v : Value) : Act κ (Option NativeId) := do
  match ← host? e v with
  | none => pure none
  | some id =>
    match ← Act.view (·.native? id) with
    | some (.adapter a) =>
      Act.update (·.modifyOwners a.bound (· + 1))
      pure (some a.bound)
    | _ => pure none

/-- The value is a primitive or denotes a live object. -/
def isLive (e : EngineId) (v : Value) : Act κ Bool :=
  match v.handle? with
  | some h => Act.readHeap e (·.isLive h)
  | none => pure true

/-! ## Collection -/

/-- **A full collection.** The statistics are those of this collection, whatever
dropping the freed objects sets off. -/
def collect (m : Machine κ) (e : EngineId) : Act κ GcStats := do
  let (roots, stats) ← Act.view fun w => ((w.engine e).roots, (w.engine e).stats)
  let (freed, stats) ← Act.writeHeap e fun heap =>
    let (freed, heap, stats) := heap.collect roots stats
    ((freed, stats), heap)
  Act.update (·.modifyEngine e fun s => { s with stats := stats })
  m.releaseAll freed
  pure stats

/-- **Collect if enough was allocated** since the last collection. -/
def safepoint (m : Machine κ) (e : EngineId) : Act κ Bool := do
  let threshold ← Act.view fun w => (w.engine e).options.gcThreshold
  if threshold = 0 then pure false
  else if (← Act.readHeap e (·.sinceCollection)) < threshold then pure false
  else
    discard (m.collect e)
    pure true

end EmbeddedScript.Machine
