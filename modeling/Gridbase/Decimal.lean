import Gridbase.Text.Digits

/-! # Fixed-point decimals

    A decimal is a whole coefficient of at most 96 bits and a scale of at most
    28 places.  The scale is part of the value as written (`1.50` keeps its
    zero) and takes no part in numeric equality. -/

namespace Gridbase

/-- The number `coefficient / 10 ^ scale`. -/
structure Decimal where
  coefficient : Int
  scale : Nat
  coefficient_lt : coefficient.natAbs < 2 ^ 96 := by decide
  scale_le : scale ≤ 28 := by decide
deriving DecidableEq

namespace Decimal

/-- Zero without decimal places. -/
def zero : Decimal := { coefficient := 0, scale := 0 }

instance : Inhabited Decimal := ⟨zero⟩

/-- The decimal with the given parts, if they fit. -/
def ofParts? (coefficient : Int) (scale : Nat) : Option Decimal :=
  if h : coefficient.natAbs < 2 ^ 96 ∧ scale ≤ 28 then
    some ⟨coefficient, scale, h.1, h.2⟩
  else none

/-- Equality of the numbers, whatever their scales. -/
def equal (a b : Decimal) : Bool :=
  -- each coefficient over the scale of the other: both sides over one denominator
  a.coefficient * 10 ^ b.scale == b.coefficient * 10 ^ a.scale

/-- How many digits the coefficient has, at least one.  Zeros that the scale puts
    before the coefficient are none of them: `0.05` has one digit. -/
def digitCount (d : Decimal) : Nat := (Text.digits d.coefficient.natAbs).length

/-- The digits of the coefficient with a point before the last `scale` of them. -/
def text (d : Decimal) : String :=
  -- one digit more than the scale, so that one always stands before the point
  let all := Text.padded (d.scale + 1) d.coefficient.natAbs
  let body :=
    if d.scale = 0 then all
    else all.take (all.length - d.scale) ++ '.' :: all.drop (all.length - d.scale)
  String.ofList (if d.coefficient < 0 then '-' :: body else body)

end Decimal

end Gridbase
