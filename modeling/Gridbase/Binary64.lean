import Gridbase.Text.Digits

/-! # Binary floating point numbers

    A double as its 64 bits.  Every finite double is a whole multiple of
    `2 ^ -1074`, so its exact value is one integer, `units`; comparison and
    rounding are arithmetic on that integer. -/

namespace Gridbase

/-- A binary64 number, given by its bits.  Equality of the bits is finer than that of
    the numbers: the two zeros differ, and so do those that are no number. -/
structure Binary64 where
  bits : UInt64
deriving DecidableEq, Inhabited

namespace Binary64

/-! ## Fields -/

/-- The sign bit. -/
def negative (x : Binary64) : Bool := 2 ^ 63 ≤ x.bits.toNat

/-- The biased exponent. -/
def exponentField (x : Binary64) : Nat := x.bits.toNat / 2 ^ 52 % 2 ^ 11

/-- The trailing significand. -/
def fractionField (x : Binary64) : Nat := x.bits.toNat % 2 ^ 52

/-- The bits without the sign. -/
def absBits (x : Binary64) : Nat := x.bits.toNat % 2 ^ 63

/-- Neither infinite nor NaN. -/
def isFinite (x : Binary64) : Bool := x.exponentField < 2047

/-- The exponent field is full and the significand is not zero. -/
def isNaN (x : Binary64) : Bool := x.exponentField == 2047 && x.fractionField != 0

/-! ## Exact values -/

/-- The magnitude that unsigned bits stand for, in units of `2 ^ -1074`.
    The bits of infinity give the power of two after the largest double. -/
def magnitudeOf (abs : Nat) : Nat :=
  -- below the least exponent there is no hidden bit
  if abs / 2 ^ 52 = 0 then abs % 2 ^ 52
  else (2 ^ 52 + abs % 2 ^ 52) * 2 ^ (abs / 2 ^ 52 - 1)

/-- The magnitude in units of `2 ^ -1074`. -/
def magnitude (x : Binary64) : Nat := magnitudeOf x.absBits

/-- The value in units of `2 ^ -1074`. -/
def units (x : Binary64) : Int :=
  if x.negative then -(x.magnitude : Int) else x.magnitude

/-! ## Rounding -/

/-- The quotient rounded to the nearest whole number, a half to the even one.  This is
    the only rounding of arithmetic on doubles; every operation rounds once. -/
def roundQuotient (n d : Nat) : Nat :=
  let q := n / d
  let r := n % d
  if 2 * r < d then q else if d < 2 * r then q + 1 else q + q % 2

/-- The unsigned bits of infinity. -/
def infinityBits : Nat := 2047 * 2 ^ 52

/-- The unsigned bits of the double nearest to `n / d` units.  The shift leaves
    53 significant bits; a carry out of them moves on to the next exponent. -/
def nearestBits (n d : Nat) : Nat :=
  -- for subnormal numbers the shift is zero: units are their last place
  let shift := Nat.log2 (n / d) - 52
  min (shift * 2 ^ 52 + roundQuotient n (d * 2 ^ shift)) infinityBits

/-- The double with a sign and unsigned bits. -/
def ofParts (neg : Bool) (abs : Nat) : Binary64 :=
  ⟨UInt64.ofNat (if neg then 2 ^ 63 + abs else abs)⟩

/-- The double nearest to a signed ratio of units. -/
def nearest (neg : Bool) (n d : Nat) : Binary64 := ofParts neg (nearestBits n d)

/-- The double nearest to a whole number of units. -/
def ofUnits (z : Int) : Binary64 := nearest (z < 0) z.natAbs 1

/-- The double nearest to an integer. -/
def ofInt (z : Int) : Binary64 := ofUnits (z * 2 ^ 1074)

/-- The double nearest to a product: it is rounded once, from the exact product. -/
def mul (x y : Binary64) : Binary64 :=
  -- a product of units is in squared units, hence the denominator
  nearest (x.negative != y.negative) (x.magnitude * y.magnitude) (2 ^ 1074)

/-- The double nearest to a quotient: it is rounded once, from the exact quotient. -/
def div (x y : Binary64) : Binary64 :=
  nearest (x.negative != y.negative) (x.magnitude * 2 ^ 1074) y.magnitude

/-- The value without its fraction, cut off towards zero. -/
def truncate (x : Binary64) : Int := x.units.tdiv (2 ^ 1074)

/-- The value has no fraction. -/
def isWhole (x : Binary64) : Bool := x.isFinite && x.units % 2 ^ 1074 == 0

/-- Numeric equality: the two zeros are equal, a NaN equals nothing. -/
def equal (x y : Binary64) : Bool := !x.isNaN && !y.isNaN && x.units == y.units

end Binary64

end Gridbase
