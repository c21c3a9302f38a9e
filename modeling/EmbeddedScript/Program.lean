import EmbeddedScript.World

/-!
# Programs of native code

Native code is a **program**: a tree whose nodes are operations on the world and
whose branches are their possible answers. Whatever a host, a function body or a
bound object does with the engine is such a tree, and every finite one is
allowed, so a statement about all programs is a statement about all natives.

A program runs in a frame that can own things – levels of a lock, a released
lock, roots, shares of natives. They are dropped innermost first when the program
ends, by returning or by panicking, unless it dropped or forgot them before.
-/

namespace EmbeddedScript

/-- **Why native code panicked.** -/
inductive Panic where
  /-- A typed accessor was used on a value of this other type. -/
  | wrongAccessor (accessor : String) (type : String)
  /-- An operation was used on a script value of this other type. -/
  | wrongOperation (operation : String) (type : String)
  /-- Several methods share a name. -/
  | overloaded (candidates : Nat)
  /-- The heap was lent out. -/
  | heapLent
  /-- A registry was to have room for more classes than it ever can. -/
  | noRoom
  /-- There is no native of this name, or it cannot answer this request. -/
  | noAnswer
  /-- Native code panicked in its own words. -/
  | native (message : String)
deriving DecidableEq

/-- The wording of a panic. -/
def Panic.message : Panic → String
  | wrongAccessor accessor type => s!"{accessor} called on {type} value"
  | wrongOperation operation type => s!"{operation} on {type} value"
  | overloaded n => s!"overloaded methods are not supported ({n} candidates)"
  | heapLent => "the heap is lent out"
  | noRoom => "Hash table capacity overflow"
  | noAnswer => "no native answers"
  | native message => message

/-- The two classes of error object that the engine throws itself. -/
inductive ThrownClass where
  /-- A general error. -/
  | error
  /-- An error of type. -/
  | typeError
deriving DecidableEq

/-- The `name` of an error object. -/
def ThrownClass.name : ThrownClass → String
  | error => "Error"
  | typeError => "TypeError"

/-- **An operation on the world**, as native code can ask for it. -/
inductive Op (κ : Type) where
  /-- Make an engine. -/
  | newEngine (options : Options)
  /-- The configuration of an engine. -/
  | options (e : EngineId)
  /-- Create a plain object. -/
  | createObject (e : EngineId)
  /-- Create an array of holes. -/
  | createArray (e : EngineId) (length : Nat)
  /-- Create an array of items. -/
  | createArrayOf (e : EngineId) (items : List Value)
  /-- Create a function; it takes over a share of its body. -/
  | createFunction (e : EngineId) (name : String) (body : NativeId)
  /-- Create a host wrapper; it takes over a share of its host. -/
  | createHost (e : EngineId) (host : NativeId)
  /-- Read a property. -/
  | get (e : EngineId) (target : Value) (name : String)
  /-- Write a property. -/
  | set (e : EngineId) (target : Value) (name : String) (value : Value)
  /-- The own property names. -/
  | names (e : EngineId) (target : Value)
  /-- The length of an array. -/
  | arrayLength (e : EngineId) (array : Value)
  /-- Read an element. -/
  | arrayGet (e : EngineId) (array : Value) (index : Nat)
  /-- Write an element. -/
  | arraySet (e : EngineId) (array : Value) (index : Nat) (value : Value)
  /-- Append an element; the new length. -/
  | arrayPush (e : EngineId) (array : Value) (value : Value)
  /-- Remove the last element. -/
  | arrayPop (e : EngineId) (array : Value)
  /-- Call a function. -/
  | call (e : EngineId) (callee this : Value) (args : List Value)
  /-- Convert to a primitive. -/
  | toPrimitive (e : EngineId) (v : Value) (hint : Hint)
  /-- Convert to a string. -/
  | display (e : EngineId) (v : Value)
  /-- The kind of an object. -/
  | kind (e : EngineId) (v : Value)
  /-- The host behind a wrapper, with a share of it. -/
  | hostOf (e : EngineId) (v : Value)
  /-- The bound object behind a wrapper whose host is an adapter, with a share
  of it. -/
  | boundOf (e : EngineId) (v : Value)
  /-- The value is a primitive or a live object. -/
  | isLive (e : EngineId) (v : Value)
  /-- The number of live objects. -/
  | liveObjects (e : EngineId)
  /-- Add a persistent root without owning it. -/
  | protect (e : EngineId) (v : Value)
  /-- Take a persistent root away. -/
  | unprotect (e : EngineId) (v : Value)
  /-- The number of persistent roots of a value. -/
  | protectCount (e : EngineId) (v : Value)
  /-- Root a value. -/
  | root (e : EngineId) (v : Value)
  /-- Drop a root. -/
  | unroot (r : Root)
  /-- Collect; the statistics of this collection. -/
  | collect (e : EngineId)
  /-- Collect if enough was allocated since the last collection. -/
  | safepoint (e : EngineId)
  /-- The collector's statistics. -/
  | stats (e : EngineId)
  /-- Build a thrown error object. -/
  | raise (e : EngineId) (cls : ThrownClass) (message : String)
  /-- Describe an error. -/
  | describe (e : EngineId) (err : EngineError)
  /-- Report an exception. -/
  | report (e : EngineId) (err : EngineError)
  /-- Take the descriptions of all reported exceptions. -/
  | takeReported (e : EngineId)
  /-- The depth of the exclusivity lock. -/
  | lockDepth (e : EngineId)
  /-- Take a level of the lock. -/
  | lock (e : EngineId)
  /-- Release the lock; the depth to restore. -/
  | releaseLock (e : EngineId)
  /-- Make a native, with one share owned by whoever made it. -/
  | spawn (n : Native κ)
  /-- Take another share of a native. -/
  | retain (id : NativeId)
  /-- Let go of a share of a native. -/
  | release (id : NativeId)
  /-- Ask a native. -/
  | ask (id : NativeId) (request : Request)
  /-- Look at a native. -/
  | look (id : NativeId)
  /-- Change the state of a native of the embedder's. -/
  | become (id : NativeId) (state : κ)
  /-- Make a registry. -/
  | newRegistry (room : Nat)
  /-- The class of a bound object in a registry. -/
  | classFor (r : RegistryId) (bound : NativeId)
  /-- Drop every class of a registry. -/
  | finalizeRegistry (r : RegistryId)
  /-- The number of entries of a registry. -/
  | registrySize (r : RegistryId)
  /-- Make a class. -/
  | newClass
  /-- The class of an adapter. -/
  | adapterClass (id : NativeId)
  /-- What a class has confirmed. -/
  | reflected (c : ClassId)
  /-- The descriptor that a class remembers for a name. -/
  | cached (c : ClassId) (kind : MemberKind) (name : String)
  /-- The descriptor of a name in a class, made when there is none. -/
  | intern (c : ClassId) (kind : MemberKind) (name : String)
  /-- Write a note. -/
  | note (n : Note)
  /-- Take all notes, the oldest first. -/
  | takeNotes

/-- **The type of an operation's answer.** -/
@[reducible] def Op.Reply {κ : Type} : Op κ → Type
  | newEngine _ => EngineId
  | options _ => Options
  | createObject _ => Except EngineError Value
  | createArray _ _ => Except EngineError Value
  | createArrayOf _ _ => Except EngineError Value
  | createFunction _ _ _ => Except EngineError Value
  | createHost _ _ => Except EngineError Value
  | get _ _ _ => Except EngineError Value
  | set _ _ _ _ => Except EngineError Unit
  | names _ _ => Except EngineError (List String)
  | arrayLength _ _ => Except EngineError Nat
  | arrayGet _ _ _ => Except EngineError Value
  | arraySet _ _ _ _ => Except EngineError Unit
  | arrayPush _ _ _ => Except EngineError Nat
  | arrayPop _ _ => Except EngineError Value
  | call _ _ _ _ => Except EngineError Value
  | toPrimitive _ _ _ => Except EngineError Value
  | display _ _ => String
  | kind _ _ => Option ObjectKind
  | hostOf _ _ => Option NativeId
  | boundOf _ _ => Option NativeId
  | isLive _ _ => Bool
  | liveObjects _ => Nat
  | protect _ _ => Unit
  | unprotect _ _ => Unit
  | protectCount _ _ => Nat
  | root _ _ => Root
  | unroot _ => Unit
  | collect _ => GcStats
  | safepoint _ => Bool
  | stats _ => GcStats
  | raise _ _ _ => EngineError
  | describe _ _ => String
  | report _ _ => Unit
  | takeReported _ => List String
  | lockDepth _ => Nat
  | lock _ => Unit
  | releaseLock _ => Nat
  | spawn _ => NativeId
  | retain _ => Unit
  | release _ => Unit
  | ask _ request => request.Reply
  | look _ => Option (Native κ)
  | become _ _ => Unit
  | newRegistry _ => RegistryId
  | classFor _ _ => ClassId
  | finalizeRegistry _ => Unit
  | registrySize _ => Nat
  | newClass => ClassId
  | adapterClass _ => ClassId
  | reflected _ => ReflectedClass
  | cached _ _ _ => Option Descriptor
  | intern _ _ _ => Descriptor
  | note _ => Unit
  | takeNotes => List Note

/-- **Something a frame owns**, to be dropped when the frame ends. -/
inductive Local where
  /-- A guard of an engine's lock. -/
  | guard (e : EngineId) (g : Guard)
  /-- A root. -/
  | root (r : Root)
  /-- A share of a native. -/
  | native (id : NativeId)
deriving DecidableEq

/-- **A program of native code** with results in `α`. -/
inductive Program (κ α : Type) where
  /-- Return. -/
  | done (a : α)
  /-- Panic. -/
  | panic (p : Panic)
  /-- Perform an operation and go on with its answer. -/
  | perform (op : Op κ) (next : op.Reply → Program κ α)
  /-- Own something from here on. -/
  | hold (l : Local) (next : Program κ α)
  /-- Drop what was owned last. -/
  | drop (next : Program κ α)
  /-- Stop owning what was owned last, without dropping it. -/
  | forget (next : Program κ α)

namespace Program

variable {κ α β : Type}

/-- Go on with the result of a program. -/
def bind : Program κ α → (α → Program κ β) → Program κ β
  | done a, f => f a
  | panic p, _ => panic p
  | perform op next, f => perform op fun r => (next r).bind f
  | hold l next, f => hold l (next.bind f)
  | drop next, f => drop (next.bind f)
  | forget next, f => forget (next.bind f)

instance : Monad (Program κ) where
  pure := done
  bind := bind

/-- One operation. -/
def op (o : Op κ) : Program κ o.Reply := perform o done

/-- **Own something for the length of a program.** -/
def owning (l : Local) (body : Program κ α) : Program κ α :=
  hold l (body.bind fun a => drop (done a))

/-- Drop something. -/
def dispose (l : Local) : Program κ Unit := hold l (drop (done ()))

/-- Run a program with one more level of the lock taken. -/
def locked (e : EngineId) (body : Program κ α) : Program κ α :=
  (op (.lock e)).bind fun _ => owning (.guard e .level) body

/-- **Run a program with the lock released**, and restore it exactly. -/
def unlocked (e : EngineId) (body : Program κ α) : Program κ α :=
  (op (.releaseLock e)).bind fun saved => owning (.guard e (.release saved)) body

/-- Make a registry with room for some classes. -/
def makeRegistry (room : Nat) : Program κ RegistryId :=
  if Registry.maxRoom < room then panic .noRoom else op (.newRegistry room)

/-- Let go of the share that a native value owns. -/
def discard : NativeValue → Program κ Unit
  | .object id => op (.release id)
  | _ => done ()

/-- Take another share of what a native value refers to. -/
def share (v : NativeValue) : Program κ NativeValue :=
  match v with
  | .object id => (op (.retain id)).bind fun _ => done v
  | _ => done v

/-- Drop as many things as this, the ones owned last, and return. -/
def dropping (a : α) : Nat → Program κ α
  | 0 => done a
  | n + 1 => drop (dropping a n)

/-- **Own several things for the length of a program**; the first is dropped
first. -/
def owningEach (ls : List Local) (body : Program κ α) : Program κ α :=
  ls.foldl (fun body l => hold l body) (body.bind fun a => dropping a ls.length)

/-- Own the shares of some native values for the length of a program; the first
is dropped first. -/
def owningAll (vs : List NativeValue) (body : Program κ α) : Program κ α :=
  owningEach ((vs.filterMap NativeValue.object?).map .native) body

end Program

end EmbeddedScript
