import Std.Data.TreeMap.Basic
import EmbeddedScript.NativeValue

/-!
# Reflection

What is remembered about bound objects. A **class** holds the methods and the
fields that one bound object has confirmed; only confirmations are kept, and the
first descriptor stored for a name is the one that stays. A **registry** finds
the class of a bound object by the object's address.

An address can be used again once an object is gone, so an entry also refers to
its object without owning it: an entry whose object is dead is never handed out,
and the next class for the same address replaces it. Entries of dead objects may be
purged when a new class is entered. A table that is about to grow does so, and when
a table grows is its own affair: entering takes whether to purge as an argument, and
`Registry.isFull` is one answer among many.
-/

namespace EmbeddedScript

/-- **A confirmed member** of a bound object. Two descriptors are the same
exactly when their serial numbers agree. -/
structure Descriptor where
  /-- The number of descriptors made before this one. -/
  serial : Nat
  /-- The member's name. -/
  name : String
deriving DecidableEq

/-- The two kinds of member. -/
inductive MemberKind where
  /-- Something that can be invoked. -/
  | method
  /-- Something that can be read and written. -/
  | field
deriving DecidableEq

/-- **What one bound object has confirmed.** -/
structure ReflectedClass where
  /-- The methods, by name. -/
  methods : Properties Descriptor := .empty
  /-- The fields, by name. -/
  fields : Properties Descriptor := .empty
deriving DecidableEq, Inhabited

namespace ReflectedClass

/-- The members of one kind. -/
def members (c : ReflectedClass) : MemberKind → Properties Descriptor
  | .method => c.methods
  | .field => c.fields

/-- The descriptor remembered for a name. -/
def cached? (c : ReflectedClass) (kind : MemberKind) (name : String) : Option Descriptor :=
  (c.members kind).get? name

/-- The class with a descriptor remembered for its name. -/
def insert (c : ReflectedClass) (kind : MemberKind) (d : Descriptor) : ReflectedClass :=
  match kind with
  | .method => { c with methods := c.methods.set d.name d }
  | .field => { c with fields := c.fields.set d.name d }

/-- **Remember a name**, with a new descriptor unless one is stored already; the
descriptor that is stored, and the class afterwards. -/
def intern (c : ReflectedClass) (kind : MemberKind) (fresh : Descriptor) :
    Descriptor × ReflectedClass :=
  match c.cached? kind fresh.name with
  | some d => (d, c)
  | none => (fresh, c.insert kind fresh)

end ReflectedClass

/-- **The name of a class.** -/
structure ClassId where
  /-- The class's number. -/
  index : Nat
deriving DecidableEq, Inhabited

/-- **The name of a registry.** -/
structure RegistryId where
  /-- The registry's number. -/
  index : Nat
deriving DecidableEq, Inhabited

/-- **An entry of a registry.** -/
structure RegistryEntry where
  /-- The bound object, referred to without owning it. -/
  object : NativeId
  /-- Its class. -/
  cls : ClassId
deriving DecidableEq

/-- **The classes of bound objects, by address.** -/
structure Registry where
  /-- The entries, by the addresses of their objects. -/
  entries : Std.TreeMap Nat RegistryEntry := ∅
  /-- How many entries there is room for, if no place is lost to one that was erased. -/
  room : Nat := 0
deriving Inhabited

namespace Registry

/-- **The room of the smallest table** for some entries. A table has four places,
or eight, or sixteen and so on; one of up to eight places keeps one of them free,
and a larger one keeps an eighth of them free. -/
def roomFor (entries : Nat) : Nat :=
  if entries = 0 then 0
  else if entries ≤ 3 then 3
  else
    let sevens := (entries + 6) / 7
    if sevens = 1 then 7 else 7 <<< ((sevens - 1).log2 + 1)

/-- The most entries that a table can be asked to have room for. -/
def maxRoom : Nat := 7 <<< 54

/-- An empty registry with room for some entries. -/
def withRoom (entries : Nat) : Registry := { room := roomFor entries }

/-- The class of the object at an address, if its entry's object is alive. -/
def find? (r : Registry) (alive : NativeId → Bool) (address : Nat) : Option ClassId :=
  (r.entries[address]?.filter (alive ·.object)).map (·.cls)

/-- There is no room for one more entry. A table that has lost places to entries that
were erased is full sooner. -/
def isFull (r : Registry) : Bool := r.room ≤ r.entries.size

/-- The entries after a purge or without one; a purge takes those of dead objects. -/
def kept (r : Registry) (purges : Bool) (alive : NativeId → Bool) :
    Std.TreeMap Nat RegistryEntry :=
  if purges then r.entries.filter fun _ entry => alive entry.object else r.entries

/-- **Enter a new class** for the object at an address, after a purge or without one. -/
def enter (r : Registry) (purges : Bool) (alive : NativeId → Bool) (address : Nat)
    (entry : RegistryEntry) : Registry :=
  let entries := (r.kept purges alive).insert address entry
  { entries := entries, room := max r.room (roomFor entries.size) }

/-- The registry without entries. -/
def finalize (_ : Registry) : Registry := {}

/-- The number of entries, those of dead objects included. -/
def size (r : Registry) : Nat := r.entries.size

end Registry

end EmbeddedScript
