import EmbeddedScript.Reflection
import EmbeddedScript.Request

/-!
# The world

Everything that outlives a single operation: the engines, the natives, the live
roots and the reflection tables. Engines do not contain natives; a heap object
refers to its native by name, so that a host which runs while its engine is in
the middle of an operation acts on the same world as that operation.

**Natives are shared.** Each is counted by its owners – heap objects, other
natives, native code – and is finalised when the last one lets go. An entry
stays in the table afterwards with no owners, so a name always denotes the same
native.

A `World` is generic in `κ`, the embedder's own natives. Two kinds are the
bridge's: an **adapter** is the host that answers for a bound object, and a
**proxy** is the bound object that stands for a script value.

The world also keeps a journal of what cannot be read off a later state: which
requests were made of natives, how each engine stood at that moment, and which values
were stale when they were stored.
-/

namespace EmbeddedScript

/-- **A live persistent root** of one value, held by native code. -/
structure Root where
  /-- The number of roots made before this one. -/
  serial : Nat
  /-- The engine whose value is rooted. -/
  engine : EngineId
  /-- The rooted value. -/
  value : Value
deriving DecidableEq

/-- **The host that answers for a bound object.** -/
structure Adapter where
  /-- The bound object, of which the adapter owns a share. -/
  bound : NativeId
  /-- The registry in which the object's class is looked up. -/
  registry : RegistryId
  /-- The class, once it has been looked up. -/
  cls : Option ClassId := none
deriving DecidableEq

/-- **The bound object that stands for a script value.** -/
structure Proxy where
  /-- The root of the value. -/
  root : Root
  /-- The registry through which further objects are converted. -/
  registry : RegistryId
deriving DecidableEq

/-- **A native.** -/
inductive Native (κ : Type) where
  /-- A host that answers for a bound object. -/
  | adapter (a : Adapter)
  /-- A bound object that stands for a script value. -/
  | proxy (p : Proxy)
  /-- A native of the embedder's. -/
  | custom (state : κ)
deriving DecidableEq

/-- A native and the number of its owners. -/
structure NativeEntry (κ : Type) where
  /-- The native. -/
  native : Native κ
  /-- How many shares of it are owned. -/
  owners : Nat

/-- How an engine stood at some moment. -/
structure Posture where
  /-- The depth of its exclusivity lock. -/
  depth : Nat
  /-- How its heap was lent out. -/
  loan : Loan
deriving DecidableEq

/-- **What the journal records.** -/
inductive Event where
  /-- A native was asked, with the engines standing like this. -/
  | asked (native : NativeId) (request : Request) (engines : List Posture)
  /-- A native lost its last owner, with the engines standing like this. -/
  | finalised (native : NativeId) (engines : List Posture)
  /-- Native code protected a value without a root. -/
  | pinned (engine : EngineId) (v : Value)
  /-- Native code took away the protection of a value. -/
  | unpinned (engine : EngineId) (v : Value)
  /-- Values were put into an object though they denoted nothing at that moment. -/
  | storedStale (engine : EngineId) (vs : List Value)
deriving DecidableEq

/-- **A value as it looked** when it was written down: objects with their kind,
or without one when the handle was stale. -/
structure View where
  /-- The value. -/
  value : Value
  /-- The kind of the object it denoted. -/
  kind : Option ObjectKind
deriving DecidableEq

/-- **A native value as it looked**: a proxy by the value it stands for, another
object by the label it gave itself. -/
inductive NativeView where
  /-- A value that is no object. -/
  | plain (v : NativeValue)
  /-- A proxy. -/
  | proxy (subject : View)
  /-- Another bound object. -/
  | bound (label : String)
deriving DecidableEq

/-- An item of a note. -/
inductive NoteItem where
  /-- A text. -/
  | text (s : String)
  /-- A number. -/
  | count (n : Nat)
  /-- A script value. -/
  | value (v : View)
  /-- Several script values. -/
  | values (vs : List View)
  /-- A native value. -/
  | native (v : NativeView)
  /-- Several native values. -/
  | natives (vs : List NativeView)
deriving DecidableEq

/-- **What native code wrote down** about one event. -/
abbrev Note := List NoteItem

/-- **The world.** -/
structure World (κ : Type) where
  /-- The engines, by number; the first always exists. -/
  engines : List Engine := [default]
  /-- The natives, by number. -/
  natives : Array (NativeEntry κ) := #[]
  /-- The live roots. -/
  roots : List Root := []
  /-- The number of roots made so far. -/
  rootsMade : Nat := 0
  /-- The registries, by number. -/
  registries : List Registry := []
  /-- The classes, by number. -/
  classes : Array ReflectedClass := #[]
  /-- The number of descriptors made so far. -/
  descriptorsMade : Nat := 0
  /-- What native code wrote down, the latest first. -/
  notes : List Note := []
  /-- What happened, the latest first. -/
  journal : List Event := []

namespace World

variable {κ : Type}

instance : Inhabited (World κ) := ⟨{}⟩

/-! ## Tables -/

/-- **The table with one entry changed**, and grown with default entries to reach
it. -/
def alter {α : Type} [Inhabited α] (f : α → α) : List α → Nat → List α
  | [], 0 => [f default]
  | [], i + 1 => default :: alter f [] i
  | a :: l, 0 => f a :: l
  | a :: l, i + 1 => a :: alter f l i

/-- Only the entry that was changed reads differently afterwards. -/
theorem getD_alter {α : Type} [Inhabited α] (f : α → α) (l : List α) (i j : Nat) :
    (alter f l i).getD j default =
      if i = j then f (l.getD i default) else l.getD j default := by
  induction l, i using alter.induct generalizing j with
  | case1 => cases j <;> simp [alter]
  | case2 i ih =>
    cases j with
    | zero => simp [alter]
    | succ j => simpa [alter] using ih j
  | case3 a l => cases j <;> simp [alter]
  | case4 a l i ih =>
    cases j with
    | zero => simp [alter]
    | succ j => simpa [alter] using ih j

/-- Two changes to one entry are one. -/
theorem alter_alter {α : Type} [Inhabited α] (f g : α → α) (l : List α) (i : Nat) :
    alter g (alter f l i) i = alter (g ∘ f) l i := by
  induction l, i using alter.induct with
  | case1 => rfl
  | case2 i ih => simp [alter, ih]
  | case3 a l => rfl
  | case4 a l i ih => simp [alter, ih]

/-! ## Engines -/

/-- **The state of an engine.** An engine that was never made stands as a new
one. -/
def engine (w : World κ) (e : EngineId) : Engine := w.engines.getD e.index default

/-- Change the state of an engine. -/
def modifyEngine (w : World κ) (e : EngineId) (f : Engine → Engine) : World κ :=
  { w with engines := alter f w.engines e.index }

/-- Add an engine. -/
def addEngine (w : World κ) (options : Options) : EngineId × World κ :=
  (⟨w.engines.length⟩, { w with engines := w.engines ++ [.new options] })

/-- How the engines stand. -/
def postures (w : World κ) : List Posture :=
  w.engines.map fun e => ⟨e.lock.depth, e.loan⟩

/-- Record an event. -/
def record (w : World κ) (event : Event) : World κ :=
  { w with journal := event :: w.journal }

/-- Record which values were stale when they were stored, if any were. -/
def recordStale (w : World κ) (e : EngineId) (stale : List Value) : World κ :=
  if stale.isEmpty then w else w.record (.storedStale e stale)

/-- A change to one engine shows there and nowhere else. -/
theorem engine_modifyEngine (w : World κ) (e e' : EngineId) (f : Engine → Engine) :
    (w.modifyEngine e f).engine e' = if e = e' then f (w.engine e) else w.engine e' := by
  obtain ⟨i⟩ := e
  obtain ⟨j⟩ := e'
  simpa [engine, modifyEngine] using getD_alter f w.engines i j

@[simp] theorem engine_modifyEngine_self (w : World κ) (e : EngineId) (f : Engine → Engine) :
    (w.modifyEngine e f).engine e = f (w.engine e) := by
  simp [engine_modifyEngine]

/-- Two changes to one engine are one. -/
theorem modifyEngine_modifyEngine (w : World κ) (e : EngineId) (f g : Engine → Engine) :
    (w.modifyEngine e f).modifyEngine e g = w.modifyEngine e (g ∘ f) := by
  simp [modifyEngine, alter_alter]

/-- **Give an engine another heap**; the heap it had. A heap that is taken out of
its engine before it is changed has no second owner, and is not copied. -/
@[noinline] def exchangeHeap (w : World κ) (e : EngineId) (heap : Heap) : Heap × World κ :=
  ((w.engine e).heap, w.modifyEngine e fun s => { s with heap := heap })

/-! ## Natives -/

/-- The native of a name. -/
def native? (w : World κ) (id : NativeId) : Option (Native κ) :=
  w.natives[id.index]?.map (·.native)

/-- The number of owners of a native. -/
def owners (w : World κ) (id : NativeId) : Nat :=
  (w.natives[id.index]?.map (·.owners)).getD 0

/-- The native still has an owner. -/
def isAlive (w : World κ) (id : NativeId) : Bool := 0 < w.owners id

/-- Add a native with one owner. -/
def addNative (w : World κ) (n : Native κ) : NativeId × World κ :=
  (⟨w.natives.size⟩, { w with natives := w.natives.push ⟨n, 1⟩ })

/-- Change the number of owners of a native. -/
def modifyOwners (w : World κ) (id : NativeId) (f : Nat → Nat) : World κ :=
  { w with natives := w.natives.modify id.index fun n => { n with owners := f n.owners } }

/-- Put another native in the place of one. -/
def setNative (w : World κ) (id : NativeId) (n : Native κ) : World κ :=
  { w with natives := w.natives.modify id.index fun entry => { entry with native := n } }

/-- **Change the state of a native of the embedder's.** The bridge's own natives have
no state of that kind and stay what they are. -/
def become (w : World κ) (id : NativeId) (state : κ) : World κ :=
  match w.native? id with
  | some (.custom _) => w.setNative id (.custom state)
  | _ => w

/-! ## Roots -/

/-- **Root a value**: one more persistent root, and a live root that holds it. -/
def addRoot (w : World κ) (e : EngineId) (v : Value) : Root × World κ :=
  let root : Root := ⟨w.rootsMade, e, v⟩
  let w := w.modifyEngine e fun s => { s with roots := s.roots.protect v }
  (root, { w with roots := root :: w.roots, rootsMade := w.rootsMade + 1 })

/-- **Drop a root**, which takes its persistent root away. Only a live root can
be dropped. -/
def dropRoot (w : World κ) (root : Root) : World κ :=
  if root ∈ w.roots then
    let w := w.modifyEngine root.engine fun s => { s with roots := s.roots.unprotect root.value }
    { w with roots := w.roots.erase root }
  else w

/-! ## Reflection -/

/-- Add a class. -/
def addClass (w : World κ) : ClassId × World κ :=
  (⟨w.classes.size⟩, { w with classes := w.classes.push {} })

/-- A class by its name. -/
def reflectedClass (w : World κ) (c : ClassId) : ReflectedClass :=
  w.classes.getD c.index {}

/-- Add a registry with room for some classes. -/
def addRegistry (w : World κ) (room : Nat) : RegistryId × World κ :=
  (⟨w.registries.length⟩, { w with registries := w.registries ++ [.withRoom room] })

/-- A registry by its name. -/
def registry (w : World κ) (r : RegistryId) : Registry := w.registries.getD r.index default

/-- Change a registry. -/
def modifyRegistry (w : World κ) (r : RegistryId) (f : Registry → Registry) : World κ :=
  { w with registries := alter f w.registries r.index }

/-- **The class of a bound object** in a registry, entered when the object has
none yet; a registry that is full is purged before. A native's name serves as its
address. -/
def classFor (w : World κ) (r : RegistryId) (bound : NativeId) : ClassId × World κ :=
  match (w.registry r).find? w.isAlive bound.index with
  | some c => (c, w)
  | none =>
    let (c, w') := w.addClass
    (c, w'.modifyRegistry r fun s => s.enter s.isFull w'.isAlive bound.index ⟨bound, c⟩)

/-- **The class of an adapter**: looked up once and then kept. -/
def adapterClass (w : World κ) (id : NativeId) (a : Adapter) : ClassId × World κ :=
  match a.cls with
  | some c => (c, w)
  | none =>
    let (c, w) := w.classFor a.registry a.bound
    (c, w.setNative id (.adapter { a with cls := some c }))

/-- **The descriptor of a member** in a class, made when there is none. -/
def intern (w : World κ) (c : ClassId) (kind : MemberKind) (name : String) :
    Descriptor × World κ :=
  let (d, cls) := (w.reflectedClass c).intern kind ⟨w.descriptorsMade, name⟩
  (d, { w with
    classes := w.classes.setIfInBounds c.index cls
    descriptorsMade := w.descriptorsMade + 1 })

end World

end EmbeddedScript
