import EmbeddedScript.Error
import EmbeddedScript.Text.Numeral

/-!
# Array elements

An array is a row of elements some of which may be absent. An absent element –
a hole – reads as `undefined`, just as an element that holds `undefined` does,
but only the latter is listed among the array's names.

Arrays are reached in two ways: by index, and by name, where the names are the
canonical numerals of the indices and `length`.
-/

namespace EmbeddedScript

/-- **The elements of an array**; `none` is a hole. -/
abbrev Elements := Array (Option Value)

namespace Elements

/-- The length of the longest array; indices lie below it. -/
def maxLength : Nat := 0xffffffff

/-- An array of holes. -/
def holes (length : Nat) : Elements := Array.replicate length none

/-- The array of holes of a length, if that is the length of an array. -/
def create (length : Nat) : Except TypeFault Elements :=
  if maxLength < length then .error (.invalidLength length) else .ok (holes length)

/-- Every element present. -/
def ofList (items : List Value) : Elements := (items.map some).toArray

/-- **The element at an index**; `undefined` for a hole and beyond the end. -/
def read (els : Elements) (i : Nat) : Value := els[i]?.join.getD .undefined

/-- The array cut to a length, or grown to it with holes. -/
def resize (els : Elements) (length : Nat) : Elements :=
  els.take length ++ holes (length - els.size)

/-- **Store at an index**, growing the array with holes as far as needed. -/
def store (els : Elements) (i : Nat) (v : Value) : Except TypeFault Elements :=
  if i < els.size then .ok (els.setIfInBounds i (some v))
  else if maxLength < i + 1 then .error (.indexOutOfRange i)
  else .ok ((els.resize i).push (some v))

/-- Remove the last element; what it was, and the array without it. -/
def pop (els : Elements) : Value × Elements :=
  (els.read (els.size - 1), Array.pop els)

/-- The index that a name denotes. -/
def index? (name : String) : Option Nat :=
  (Numeral.parse? name).filter (· < maxLength)

/-- **Read by name.** -/
def property (els : Elements) (name : String) : Value :=
  if name = "length" then .number (Double.ofNat els.size)
  else ((index? name).map els.read).getD .undefined

/-- The length that a value written to `length` asks for. -/
def length? (v : Value) : Option Nat :=
  (v.number?.bind Double.toNat?).filter (· ≤ maxLength)

/-- **Write by name.** -/
def setProperty (els : Elements) (name : String) (v : Value) : Except TypeFault Elements :=
  if name = "length" then
    match length? v with
    | some length => .ok (els.resize length)
    | none => .error .invalidNewLength
  else
    match index? name with
    | some i => els.store i v
    | none => .error (.notIndex name)

/-- The numerals of the present elements' indices, ascending. -/
def names (els : Elements) : List String :=
  ((List.range els.size).filter fun i => els[i]?.join.isSome).map Numeral.write

end Elements

end EmbeddedScript
