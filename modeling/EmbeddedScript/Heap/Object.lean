import EmbeddedScript.Value
import EmbeddedScript.Properties

/-!
# Heap objects

What a heap slot can hold. Two of the five kinds refer to code outside the
engine: a function to its body, and a host wrapper to the host that answers for
it. Both are *natives*, shared objects outside the heap, and the object owns one
share of its native.

A host method is not the method itself but a name on a wrapper, so the wrapper
is among the values it references and stays alive with it.
-/

namespace EmbeddedScript

/-- **The name of a native**: an implementation that lives outside the heap and
is shared by counted owners. Names are never reused. -/
structure NativeId where
  /-- The native's number. -/
  index : Nat
deriving DecidableEq, Hashable, Inhabited

/-- **An object in the heap.** -/
inductive HeapObject where
  /-- A plain object. -/
  | plain (props : Properties Value)
  /-- An array; an absent element is a hole. -/
  | array (elements : Array (Option Value))
  /-- A function with its name, the native that runs it and its properties. -/
  | function (name : String) (body : NativeId) (props : Properties Value)
  /-- A method of a host, bound to the wrapper it was read from. -/
  | hostMethod (target : Handle) (name : String)
  /-- A host wrapper with the properties its host does not answer for. -/
  | host (host : NativeId) (expandos : Properties Value)
deriving DecidableEq

namespace HeapObject

/-- The values an object references. -/
def references : HeapObject → List Value
  | plain props => props.values
  | array elements => elements.toList.filterMap id
  | function _ _ props => props.values
  | hostMethod target _ => [.object target]
  | host _ expandos => expandos.values

/-- The handles among them: the edges that marking follows. -/
def edges (o : HeapObject) : List Handle := o.references.filterMap Value.handle?

/-- The native of which an object owns a share. -/
def native? : HeapObject → Option NativeId
  | function _ id _ => some id
  | host id _ => some id
  | _ => none

/-- The kind of an object, given whether its host – if it has one – can be
called. -/
def kind (callable : Bool) : HeapObject → ObjectKind
  | plain _ => .plain
  | array _ => .array
  | function .. | hostMethod .. => .function
  | host .. => if callable then .function else .host

/-- The diagnostic text of an object. -/
def diagnostic : HeapObject → String
  | plain props => s!"Object({props.size} props)"
  | array elements => s!"Array(len={elements.size})"
  | function name _ _ => s!"Function({name})"
  | hostMethod target name => s!"HostMethod({target.diagnostic}.{name})"
  | host _ expandos => s!"Host({expandos.size} expandos)"

end HeapObject

end EmbeddedScript
