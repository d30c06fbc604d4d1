import Gridbase.Binary64
import Gridbase.Text.Digits

/-! # Shortest digits

    The fewest decimal digits that read back as the same double, the nearest
    of them to its value, and two ways of writing them: positional without an
    exponent, and the mixed form of data formats. -/

namespace Gridbase.Binary64

/-! ## Finding the digits -/

/-- The interval of values that round to a double, in halves of a unit; the
    ends belong to it when the significand is even. -/
structure Interval where
  low : Nat
  high : Nat
  closed : Bool

/-- The interval around the double with the given unsigned bits, not zero: what is
    nearer to it than to its neighbours.  The ends belong to the even one of two. -/
def intervalOf (abs : Nat) : Interval where
  low := magnitudeOf (abs - 1) + magnitudeOf abs
  high := magnitudeOf abs + magnitudeOf (abs + 1)
  closed := abs % 2 = 0

/-- `n / d` half units lie in the interval. -/
def Interval.holds (i : Interval) (n d : Nat) : Bool :=
  if i.closed then i.low * d ≤ n && n ≤ i.high * d else i.low * d < n && n < i.high * d

/-- The nearest multiple of a power of ten that lies in the interval, as its
    multiplier.  `num / den` is the power of ten in half units. -/
def onGrid? (abs num den : Nat) : Option Nat :=
  let i := intervalOf abs
  let value := 2 * magnitudeOf abs * den
  let below := value / num
  let above := below + 1
  match i.holds (below * num) den, i.holds (above * num) den with
  -- both neighbours lie in it: the nearer one is taken, the lower one if neither is
  | true, true => if 2 * (value - below * num) ≤ num then some below else some above
  | true, false => some below
  | false, true => some above
  | false, false => none

/-- The multiplier for the grid of `10 ^ p`. -/
def onPower? (abs : Nat) (p : Int) : Option Nat :=
  if 0 ≤ p then onGrid? abs (2 ^ 1075 * 10 ^ p.toNat) 1
  else onGrid? abs (2 ^ 1075) (10 ^ (-p).toNat)

/-- Tries the grids from `10 ^ p` downwards, each finer than the one before.  The first
    that has a point in the interval gives the fewest digits. -/
def coarsest (abs : Nat) : Nat → Int → Nat × Int
  | 0, p => (0, p)
  | fuel + 1, p =>
      match onPower? abs p with
      | some c => (c, p)
      | none => coarsest abs fuel (p - 1)

/-- The shortest digits and their exponent: the value reads `digits * 10 ^ p`.
    No double needs a grid finer than `10 ^ -345` or coarser than `10 ^ 309`. -/
def shortest (abs : Nat) : Nat × Int :=
  if abs = 0 then (0, 0) else coarsest abs 660 309

/-! ## Writing them -/

/-- Digits with the point put in, no exponent, no point after the last digit.  Zeros are
    put where there is no digit, on either side of the point. -/
def positional (digits : List Char) (p : Int) : List Char :=
  if 0 ≤ p then digits ++ List.replicate p.toNat '0'
  else
    let places := (-p).toNat
    if places < digits.length then
      digits.take (digits.length - places) ++ '.' :: digits.drop (digits.length - places)
    else
      '0' :: '.' :: (List.replicate (places - digits.length) '0' ++ digits)

/-- The plain text: `-0`, `inf`, `NaN`, and never an exponent. -/
def plainText (x : Binary64) : String :=
  if x.isNaN then "NaN"
  else
    let body :=
      if !x.isFinite then "inf"
      else if x.absBits = 0 then "0"
      else
        let (c, p) := shortest x.absBits
        String.ofList (positional (Text.digits c) p)
    if x.negative then "-" ++ body else body

/-- The text of a data format: a whole number ends in `.0`, and an exponent is
    written from `1e16` up and below `1e-5`. -/
def dataText (x : Binary64) : String :=
  let sign := if x.negative then "-" else ""
  if x.absBits = 0 then sign ++ "0.0"
  else
    let (c, p) := shortest x.absBits
    let digits := Text.digits c
    let point := (digits.length : Int) + p
    let body : List Char :=
      -- a whole number of at most 16 digits is written out
      if 0 ≤ p && point ≤ 16 then positional digits p ++ ['.', '0']
      else if -5 < point && point ≤ 16 then positional digits p
      else
        let exponent := (Text.ofInt (point - 1)).toList
        match digits with
        | [d] => d :: 'e' :: exponent
        | d :: rest => d :: '.' :: rest ++ 'e' :: exponent
        | [] => []
    sign ++ String.ofList body

end Gridbase.Binary64
