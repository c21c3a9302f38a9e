/-!
# Binary64 numbers

A script number is an IEEE 754 double. It is held here as its sixty-four bits,
so that **being the same number is equality**: two NaNs with one bit pattern are
the same, and the two zeros are not. The numeric comparison, in which a NaN
differs from itself and the zeros agree, is the separate `Double.numEq`.

Everything is computed on natural numbers from the fields of the bit pattern:
a finite number is `significand · 2 ^ exponent`, and an exact result is brought
back by `Double.round`, to nearest with ties to even.
-/

namespace EmbeddedScript

/-- **A binary64 number**, as its bit pattern. -/
structure Double where
  /-- The sixty-four bits: sign, eleven exponent bits, fifty-two fraction bits. -/
  bits : UInt64
deriving DecidableEq, Hashable, Inhabited

namespace Double

/-- The sign bit by itself. -/
def signBit : Nat := 0x8000000000000000

/-- The lowest exponent bit by itself, which has the weight of a normal number's
hidden bit in its significand. -/
def hiddenBit : Nat := 0x10000000000000

/-- The highest fraction bit by itself, which tells a NaN to be quiet. -/
def quietBit : Nat := 0x8000000000000

/-- The sign bit is set. -/
def negative (x : Double) : Bool :=
  signBit ≤ x.bits.toNat

/-- The eleven exponent bits. -/
def biased (x : Double) : Nat :=
  x.bits.toNat / hiddenBit % 2048

/-- The fifty-two fraction bits. -/
def fraction (x : Double) : Nat :=
  x.bits.toNat % hiddenBit

/-- Not a number: all exponent bits and some fraction bit set. -/
def isNaN (x : Double) : Bool :=
  x.biased = 2047 ∧ x.fraction ≠ 0

/-- One of the two infinities. -/
def isInfinite (x : Double) : Bool :=
  x.biased = 2047 ∧ x.fraction = 0

/-- One of the two zeros. -/
def isZero (x : Double) : Bool :=
  x.biased = 0 ∧ x.fraction = 0

/-- The significand of a finite number; subnormal numbers have no hidden bit. -/
def significand (x : Double) : Nat :=
  if x.biased = 0 then x.fraction else x.fraction + hiddenBit

/-- The exponent of a finite number's last significand bit. -/
def exponent (x : Double) : Int :=
  if x.biased = 0 then -1074 else (x.biased : Int) - 1075

/-- The number with the given sign and the given remaining sixty-three bits. -/
def ofMagnitude (neg : Bool) (magnitude : Nat) : Double :=
  ⟨UInt64.ofNat ((if neg then signBit else 0) + magnitude)⟩

/-- Positive zero. -/
def zero : Double := ofMagnitude false 0

/-- The infinity of the given sign. -/
def infinity (neg : Bool) : Double := ofMagnitude neg (2047 * hiddenBit)

/-- The quiet NaN with no payload and no sign, which an operation without a
meaningful result yields. -/
def nan : Double := ofMagnitude false (2047 * hiddenBit + quietBit)

/-- The quotient `num / den`, to nearest, a tie to the even neighbour. -/
def divToEven (num den : Nat) : Nat :=
  let below := num / den
  let twice := 2 * (num % den)
  if twice < den then below
  else if den < twice then below + 1
  else below + below % 2

/-- **The double nearest to `± m · 2 ^ q`**, ties to even, overflowing to an
infinity. The bit pattern of a positive double counts the doubles below it, so
adding the rounded significand to the exponent field carries into the exponent
exactly when the rounding reached the next power of two. -/
def round (neg : Bool) (m : Nat) (q : Int) : Double :=
  if m = 0 then ofMagnitude neg 0
  else
    let last : Int := max (q + m.log2 - 52) (-1074)
    let rounded :=
      if last ≤ q then m <<< (q - last).toNat
      else divToEven m (1 <<< (last - q).toNat)
    let magnitude := (last + 1074).toNat * hiddenBit + rounded
    if 2047 * hiddenBit ≤ magnitude then infinity neg else ofMagnitude neg magnitude

/-- The double nearest to a natural number; exact up to `2 ^ 53`. -/
def ofNat (n : Nat) : Double := round false n 0

/-- The double nearest to an integer; exact up to `2 ^ 53` in magnitude. -/
def ofInt (i : Int) : Double := round (i < 0) i.natAbs 0

/-- **Numeric equality**: no NaN equals anything, and the two zeros are equal. -/
def numEq (x y : Double) : Bool :=
  !x.isNaN && !y.isNaN && (x == y || (x.isZero && y.isZero))

/-- The value of a finite number in units of `2 ^ q`, for `q` at most its exponent. -/
def scaled (x : Double) (q : Int) : Int :=
  let magnitude : Nat := x.significand <<< (x.exponent - q).toNat
  if x.negative then -(magnitude : Int) else magnitude

/-- **Addition**: the exact sum, rounded. A sum that is exactly zero is positive
zero unless both operands are negative zeros; the two infinities have no sum, and
neither has a NaN. -/
def add (x y : Double) : Double :=
  if x.isNaN || y.isNaN then nan
  else if x.isInfinite then
    if y.isInfinite && x.negative != y.negative then nan else x
  else if y.isInfinite then y
  else
    let q := min x.exponent y.exponent
    let sum := x.scaled q + y.scaled q
    if sum = 0 then ofMagnitude (x.negative && y.negative) 0
    else round (sum < 0) sum.natAbs q

/-- A finite number without a fractional part. -/
def isIntegral (x : Double) : Bool :=
  x.biased ≠ 2047 ∧ x.significand % (1 <<< (-x.exponent).toNat) = 0

/-- The magnitude of an integral number. -/
def integralMagnitude (x : Double) : Nat :=
  x.significand <<< x.exponent.toNat >>> (-x.exponent).toNat

/-- **The natural number that this number is**, if it is one; negative zero is
zero. -/
def toNat? (x : Double) : Option Nat :=
  if x.isIntegral && (!x.negative || x.isZero) then some x.integralMagnitude else none

end Double

end EmbeddedScript
