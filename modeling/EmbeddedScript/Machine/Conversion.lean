import EmbeddedScript.Machine.Property

/-!
# String conversion

The string form of a value joins the elements of an array with commas, asks a
host for its primitive form, and has fixed texts for everything else. Arrays can
contain themselves, so the conversion goes down only so many levels of nesting;
an object below that is left out.
-/

namespace EmbeddedScript

/-- **How script writes a number**: an integral number of moderate size with all
its digits, any other positionally, and both zeros as zero. -/
def Double.display (x : Double) : String :=
  if x.isNaN then "NaN"
  else if x.isInfinite then if x.negative then "-Infinity" else "Infinity"
  else if x.isZero then "0"
  else if x.isIntegral && decide (x.integralMagnitude < Nat.pow 10 21) then
    (if x.negative then "-" else "") ++ toString x.integralMagnitude
  else NumberFormat.plain.write x

/-- How script writes a primitive; an object has no text of its own. -/
def Value.display? : Value → Option String
  | .undefined => some "undefined"
  | .null => some "null"
  | .bool b => some (toString b)
  | .number n => some n.display
  | .string s => some s
  | .object _ => none

namespace Machine

variable {κ : Type}

/-- The number of levels of nesting that a string conversion goes down. -/
def displayLevels : Nat := 64

/-- The string form of a function. -/
def displayFunction (name : String) : String :=
  s!"function {name}() \x7b [native code] \x7d"

/-- An element that a joined array leaves blank. -/
def isBlankElement : Option Value → Bool
  | none | some .undefined | some .null => true
  | some _ => false

/-- The string form of a value, with some levels of nesting left. -/
def displayAt (m : Machine κ) (e : EngineId) (levels : Nat) (v : Value) : Act κ String :=
  match v.display? with
  | some text => pure text
  | none =>
    match levels, v.handle? with
    | 0, _ => pure ""
    | _, none => pure ""
    | levels + 1, some h => do
      match ← Act.readHeap e (·.get? h) with
      | none => pure "[stale object]"
      | some (.plain _) => pure "[object Object]"
      | some (.function name _ _) => pure (displayFunction name)
      | some (.hostMethod _ name) => pure (displayFunction name)
      | some (.array els) =>
        let texts ← els.toList.mapM fun element =>
          if isBlankElement element then pure ""
          else m.displayAt e levels (element.getD .undefined)
        pure (",".intercalate texts)
      | some (.host host _) =>
        m.sharing host do
          match ← m.askHost e host (.toPrimitive .string) with
          | .ok primitive =>
            if primitive.isObject then pure "[object Host]"
            else m.displayAt e levels primitive
          | .error _ => pure "[object Host]"

/-- **The string form of a value.** -/
def display (m : Machine κ) (e : EngineId) (v : Value) : Act κ String :=
  m.displayAt e displayLevels v

end Machine

end EmbeddedScript
