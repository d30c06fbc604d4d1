import Gridbase.Decimal

/-! # Reading decimals

    Plain notation is read exactly or not at all.  In exponent notation the
    part before the exponent is read with decimals beyond the capacity rounded
    half away from zero, and the exponent then moves the point. -/

namespace Gridbase.Decimal

/-! ## Plain notation -/

/-- What happens when a decimal place no longer fits: plain notation refuses the text,
    and the part before an exponent is rounded. -/
inductive Excess
  | refuse
  | round
deriving DecidableEq

/-- The capacity of a coefficient. -/
def capacity : Nat := 2 ^ 96

/-- Rounds on the first digit that does not fit.  When rounding up overflows the
    coefficient, one more place is given up. -/
def roundOn (digit m scale : Nat) : Option (Nat × Nat) :=
  if digit < 5 then some (m, scale)
  else if m + 1 < capacity then some (m + 1, scale)
  else if scale = 0 then none
  -- the coefficient is the capacity, whose last digit is a six: it rounds up
  else some ((m + 1 + 4) / 10, scale - 1)

/-- Ends the reading at a character that does not fit: nothing after it counts.
    A digit separator stands for a zero here. -/
def excess (policy : Excess) (c : Char) (m scale : Nat) : Option (Nat × Nat) :=
  match policy with
  | .refuse => none
  | .round =>
      if c.isDigit then roundOn (Text.digitValue c) m scale
      else if c = '_' then some (m, scale)
      else none

/-- Digits with at most one point; `_` may stand anywhere after the first digit.
    Gives the coefficient and the scale. -/
def unsigned? (policy : Excess) :
    (point seen : Bool) → (m scale : Nat) → List Char → Option (Nat × Nat)
  | _, seen, m, scale, [] => if seen then some (m, scale) else none
  | point, seen, m, scale, c :: cs =>
      -- the places are full, whatever the next character is
      if point && scale = 28 then excess policy c m scale
      else if c.isDigit then
        let next := 10 * m + Text.digitValue c
        if next < capacity then
          unsigned? policy point true next (if point then scale + 1 else scale) cs
        else if point then excess policy c m scale
        else none
      else if c = '.' then
        if point then none else unsigned? policy true seen m scale cs
      else if c = '_' && seen then unsigned? policy point seen m scale cs
      else none

/-- Plain notation with an optional sign. -/
def plain? (policy : Excess) (cs : List Char) : Option Decimal :=
  match cs with
  | '-' :: rest =>
      (unsigned? policy false false 0 0 rest).bind fun r => ofParts? (-(r.1 : Int)) r.2
  | '+' :: rest =>
      (unsigned? policy false false 0 0 rest).bind fun r => ofParts? r.1 r.2
  | _ => (unsigned? policy false false 0 0 cs).bind fun r => ofParts? r.1 r.2

/-! ## Exponent notation -/

/-- An unsigned 32-bit number, a plus sign allowed. -/
def exponentSize? (cs : List Char) : Option Nat :=
  (Text.readNat? cs).bind fun n => if n < 2 ^ 32 then some n else none

/-- The value times `10 ^ n`.  Places are used up first; beyond them the result
    is a whole number. -/
def shiftUp? (d : Decimal) (n : Nat) : Option Decimal :=
  if n ≤ d.scale then ofParts? d.coefficient (d.scale - n)
  else if 28 < n then none
  else ofParts? (d.coefficient * 10 ^ (n - d.scale)) 0

/-- The value times `10 ^ -n`, with `n` more places. -/
def shiftDown? (d : Decimal) (n : Nat) : Option Decimal :=
  if 28 < n then none else ofParts? d.coefficient (d.scale + n)

/-- A character that separates a number from its exponent. -/
def isExponentMark (c : Char) : Bool := c = 'e' || c = 'E'

/-- Exponent notation, split at the first mark. -/
def scientific? (cs : List Char) : Option Decimal := do
  let base ← plain? .round (cs.takeWhile fun c => !isExponentMark c)
  match (cs.dropWhile fun c => !isExponentMark c).tail with
  | '-' :: rest => shiftDown? base (← exponentSize? rest)
  | rest => shiftUp? base (← exponentSize? rest)

/-- Either notation.  A mark of an exponent anywhere decides, so that a text with one
    is never read as plain notation. -/
def read? (cs : List Char) : Option Decimal :=
  if cs.any isExponentMark then scientific? cs else plain? .refuse cs

end Gridbase.Decimal
