/-!
# Canonical numerals

An array reads a property name as an index only when the name is **the numeral
of that index**: decimal digits alone, with no sign, no blank and no leading
zero. So every index has exactly one name.
-/

namespace EmbeddedScript.Numeral

/-- A decimal digit; no other script's digits are read. -/
def isDigit (c : Char) : Bool :=
  '0' ≤ c && c ≤ '9'

/-- The number that a row of digits writes, most significant first. -/
def value (digits : List Char) : Nat :=
  digits.foldl (fun n c => 10 * n + (c.toNat - '0'.toNat)) 0

/-- **The number whose numeral this is**, if it is one. -/
def parse? (s : String) : Option Nat :=
  match s.toList with
  | [] => none
  | ['0'] => some 0
  | '0' :: _ => none
  | digits => if digits.all isDigit then some (value digits) else none

/-- The numeral of a number. -/
def write (n : Nat) : String := toString n

end EmbeddedScript.Numeral
