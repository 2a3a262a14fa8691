/-!
# Binary64 numbers

A double is its 64-bit word. Everything the library asks of it is answered in exact arithmetic on
natural numbers and integers: no operation here rounds except `Double.ofRatio`, which rounds once.

The unit of that arithmetic is the smallest positive double, `2⁻¹⁰⁷⁴`: every finite double is a whole
number of units (`Double.units`), and two finite doubles are compared by comparing these integers.
-/

namespace ResidualPolicy

/-- A binary64 number, as the word that encodes it. -/
structure Double where
  /-- Sign, eleven bits of exponent and fifty-two bits of fraction. -/
  bits : UInt64
  deriving DecidableEq, Repr, Inhabited

namespace Double

/-! ## The fields of the word -/

/-- How many of the smallest positive double make up one. -/
def unitsPerOne : Nat := Nat.pow 2 1074

/-- A power of two is positive. -/
theorem pow_two_pos (n : Nat) : 0 < Nat.pow 2 n :=
  Nat.pow_pos (by decide)

theorem unitsPerOne_pos : 0 < unitsPerOne := by
  unfold unitsPerOne
  apply pow_two_pos

/-- The word of positive infinity: all exponent bits set and no fraction. -/
def infinityWord : Nat := 2047 * Nat.pow 2 52

/-- Whether the sign bit is set. -/
def negative (d : Double) : Bool :=
  Nat.pow 2 63 ≤ d.bits.toNat

/-- The word without its sign bit. On doubles that are not NaN it grows with the absolute value. -/
def magnitude (d : Double) : Nat :=
  d.bits.toNat % Nat.pow 2 63

/-- Whether the word encodes no number. -/
def isNaN (d : Double) : Bool :=
  infinityWord < d.magnitude

/-- Whether the double is neither infinite nor NaN. -/
def isFinite (d : Double) : Bool :=
  d.magnitude < infinityWord

/-- The double whose word is `magnitude` under the given sign. -/
def ofMagnitude (negative : Bool) (magnitude : Nat) : Double :=
  ⟨UInt64.ofNat (if negative then Nat.pow 2 63 + magnitude else magnitude)⟩

/-- Positive infinity, or negative infinity. -/
def infinity (negative : Bool) : Double :=
  ofMagnitude negative infinityWord

/-- The NaN that stands for every NaN. -/
def nan : Double :=
  ofMagnitude false (infinityWord + Nat.pow 2 51)

/-- A finite double without its sign: `significand * 2 ^ shift` units. -/
structure Parts where
  significand : Nat
  shift : Nat
  deriving DecidableEq, Repr

/-- Splits a magnitude. Below exponent one the fraction counts units; from there on it has an
implicit leading bit, and every further exponent doubles the step. -/
def partsOf (magnitude : Nat) : Parts :=
  let exponent := magnitude / Nat.pow 2 52
  let fraction := magnitude % Nat.pow 2 52
  if exponent = 0 then ⟨fraction, 0⟩ else ⟨Nat.pow 2 52 + fraction, exponent - 1⟩

/-- Absolute value of a finite double, in units. -/
def absUnits (d : Double) : Nat :=
  let parts := partsOf d.magnitude
  parts.significand * Nat.pow 2 parts.shift

/-- Value of a finite double, in units. -/
def units (d : Double) : Int :=
  if d.negative then -(d.absUnits : Int) else d.absUnits

/-- The integer that a finite double is, if it is one. -/
def toInt? (d : Double) : Option Int :=
  if d.isFinite && d.absUnits % unitsPerOne == 0 then some (d.units / unitsPerOne) else none

/-! ## Rounding -/

/-- `numerator / denominator` rounded to a whole number, a half going to the even neighbour. -/
def roundHalfEven (numerator denominator : Nat) : Nat :=
  let quotient := numerator / denominator
  let rest := numerator % denominator
  if 2 * rest < denominator then quotient
  else if denominator < 2 * rest then quotient + 1
  else quotient + quotient % 2

/-- The magnitude nearest to `numerator / denominator`, which must not be negative. Fifty-three
significant bits are kept where the range allows it; what rounds past the largest finite double is
infinity. A significand that rounds up to the next power of two carries into the exponent, since
both are fields of one number. -/
def nearestMagnitude (numerator denominator : Nat) : Nat :=
  let scaled := numerator * unitsPerOne
  let shift := (scaled / denominator).log2 - 52
  min (shift * Nat.pow 2 52 + roundHalfEven scaled (denominator * Nat.pow 2 shift)) infinityWord

/-- The double nearest to a ratio, of two equally near ones the one with the even significand. -/
def ofRatio (negative : Bool) (numerator denominator : Nat) : Double :=
  ofMagnitude negative (nearestMagnitude numerator denominator)

/-- The double nearest to an integer. -/
def ofInt (i : Int) : Double :=
  ofRatio (i < 0) i.natAbs 1

/-- The double nearest to `digits * 10 ^ exponent`. Powers of ten far outside the range are not
computed: they can only end at infinity or at zero. -/
def ofDecimal (negative : Bool) (digits : Nat) (exponent : Int) : Double :=
  if digits = 0 then ofMagnitude negative 0
  else if 400 < exponent then infinity negative
  else if exponent + digits.log2 < -400 then ofMagnitude negative 0
  else ofRatio negative (digits * Nat.pow 10 exponent.toNat) (Nat.pow 10 (-exponent).toNat)

/-- Product with a power of ten that is itself rounded to a double first. -/
def timesPowerOfTen (d : Double) (exponent : Nat) : Double :=
  let power := ofDecimal false 1 exponent
  ofRatio d.negative (d.absUnits * power.absUnits) (unitsPerOne * unitsPerOne)

/-- Quotient by a power of ten that is itself rounded to a double first. -/
def overPowerOfTen (d : Double) (exponent : Nat) : Double :=
  let power := ofDecimal false 1 exponent
  ofRatio d.negative d.absUnits power.absUnits

end Double

end ResidualPolicy
