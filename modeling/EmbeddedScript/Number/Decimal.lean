import EmbeddedScript.Number.Double

/-!
# Shortest decimals and their layout

A double is written with **the fewest digits that read back to it**. The reals
that read back to `m · 2 ^ q` form an interval around it, closed when `m` is
even; for one digit, then two, and so on up to seventeen, the two neighbours of
the number on that decimal grid are tried, and the first grid with a hit wins.
Of two hits the nearer is taken, and of two equally near the upper one.

How the digits are then laid out is a decision of each output format, and is
one `NumberFormat` record.
-/

namespace EmbeddedScript

/-- **A decimal** `digits · 10 ^ exponent`. -/
structure Decimal where
  /-- All significant digits, read as one natural number. -/
  digits : Nat
  /-- The power of ten of the last digit. -/
  exponent : Int
deriving DecidableEq

namespace Decimal

/-- The number of decimal digits of a natural number; zero has one. -/
def length (n : Nat) : Nat := (Nat.toDigits 10 n).length

/-- The power of ten of the leading digit of `num / den`, for a positive
quotient. -/
def leadingPower (num den : Nat) : Int :=
  if den ≤ num then (length (num / den) : Int) - 1
  else -(length ((den + num - 1) / num - 1) : Int)

/-- **The interval of a double**: the reals that round to `significand · 2 ^
exponent`, in quarters of its last bit. The gap below a power of two is half as
wide as the gap above it. -/
structure Interval where
  /-- The significand at the middle. -/
  significand : Nat
  /-- The exponent of the significand's last bit. -/
  exponent : Int
  /-- The lower end is only a quarter away. -/
  narrow : Bool

/-- The interval of a finite nonzero double. -/
def Interval.ofDouble (x : Double) : Interval where
  significand := x.significand
  exponent := x.exponent
  narrow := x.fraction = 0 ∧ 1 < x.biased

/-- The neighbour of the middle on the grid of `places` digits that lies in the
interval, if one does. -/
def Interval.onGrid? (i : Interval) (places : Nat) : Option Decimal :=
  let quarter := i.exponent - 2
  let middle := 4 * i.significand
  let up := 1 <<< quarter.toNat
  let down := 1 <<< (-quarter).toNat
  let power := leadingPower (middle * up) down + 1 - places
  let num := up * Nat.pow 10 (-power).toNat
  let den := down * Nat.pow 10 power.toNat
  let low := (middle - if i.narrow then 1 else 2) * num
  let high := (middle + 2) * num
  let inside (d : Nat) : Bool :=
    if i.significand % 2 = 0 then low ≤ d * den ∧ d * den ≤ high
    else low < d * den ∧ d * den < high
  let below := middle * num / den
  let upperIsNearer := (2 * below + 1) * den ≤ 2 * (middle * num)
  match inside below, inside (below + 1) with
  | true, true => some ⟨if upperIsNearer then below + 1 else below, power⟩
  | true, false => some ⟨below, power⟩
  | false, true => some ⟨below + 1, power⟩
  | false, false => none

/-- The same decimal without trailing zero digits; `fuel` bounds how many go. -/
def trim (fuel : Nat) (d : Decimal) : Decimal :=
  match fuel with
  | 0 => d
  | fuel + 1 =>
    if d.digits ≠ 0 ∧ d.digits % 10 = 0 then trim fuel ⟨d.digits / 10, d.exponent + 1⟩
    else d

/-- **The shortest decimal that reads back** to a finite nonzero double's
magnitude. Seventeen digits always suffice. -/
def shortest (x : Double) : Decimal :=
  let i := Interval.ofDouble x
  let places := (List.range 17).map (· + 1)
  trim 20 ((places.findSome? i.onGrid?).getD ⟨x.integralMagnitude, 0⟩)

/-- The digits in positional notation, without exponent and with a point only
where a fractional digit follows. -/
def positional (d : Decimal) : String :=
  let text := toString d.digits
  let point : Int := text.length + d.exponent
  if point ≤ 0 then
    "0." ++ "".pushn '0' (-point).toNat ++ text
  else if (text.length : Int) ≤ point then
    text.pushn '0' (point - text.length).toNat
  else
    let chars := text.toList
    String.ofList (chars.take point.toNat) ++ "." ++ String.ofList (chars.drop point.toNat)

/-- The digits in scientific notation: one digit before the point. -/
def scientific (d : Decimal) : String :=
  let chars := (toString d.digits).toList
  let power : Int := chars.length + d.exponent - 1
  let tail := chars.drop 1
  let point := if tail.isEmpty then "" else "."
  String.ofList (chars.take 1) ++ point ++ String.ofList tail ++ "e" ++ toString power

end Decimal

/-- **How a number is laid out.** -/
structure NumberFormat where
  /-- Integral numbers in positional notation end in `.0`. -/
  keepsFraction : Bool
  /-- The powers of ten of the leading digit that are written positionally: from
  the first, up to but not including the second. Without bounds all are. -/
  window : Option (Int × Int)

namespace NumberFormat

/-- Positional at any size, an integral number without a point. -/
def plain : NumberFormat := ⟨false, none⟩

/-- The layout of diagnostic texts: a number always shows that it is one that
can have a fraction, and those from `1e16` up or below `1e-4` are scientific. -/
def diagnostic : NumberFormat := ⟨true, some (-4, 16)⟩

/-- The magnitude of a finite number. -/
def magnitude (f : NumberFormat) (x : Double) : String :=
  if x.isZero then
    if f.keepsFraction then "0.0" else "0"
  else
    let d := Decimal.shortest x
    let lead : Int := Decimal.length d.digits + d.exponent - 1
    let isPositional := match f.window with
      | none => true
      | some (low, high) => decide (low ≤ lead ∧ lead < high)
    if isPositional then
      d.positional ++ if f.keepsFraction && decide (0 ≤ d.exponent) then ".0" else ""
    else d.scientific

/-- The text of a number. -/
def write (f : NumberFormat) (x : Double) : String :=
  if x.isNaN then "NaN"
  else
    let sign := if x.negative then "-" else ""
    if x.isInfinite then sign ++ "inf" else sign ++ f.magnitude x

end NumberFormat

end EmbeddedScript
