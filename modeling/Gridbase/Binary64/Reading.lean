import Gridbase.Binary64
import Gridbase.Text.Digits

/-! # Reading decimal text as a double

    The nearest double to a decimal number, and the texts that name one:
    digits with an optional point and exponent, infinity and NaN in any case. -/

namespace Gridbase.Binary64

/-- The double nearest to `digits * 10 ^ exponent`.  Beyond `10 ^ 310` and below
    `10 ^ -330` the answer is known without computing the power. -/
def ofDecimal (neg : Bool) (digits : Nat) (exponent : Int) : Binary64 :=
  -- where the point stands, counted from before the first digit
  let point := ((Text.digits digits).length : Int) + exponent
  if digits = 0 || point < -330 then ofParts neg 0
  else if 310 < point then ofParts neg infinityBits
  else if 0 ≤ exponent then nearest neg (digits * 10 ^ exponent.toNat * 2 ^ 1074) 1
  else nearest neg (digits * 2 ^ 1074) (10 ^ (-exponent).toNat)

/-- The exponent after an `e`: an optional sign and at least one digit. -/
def exponent? (cs : List Char) : Option Int := Text.readInt? cs

/-- Digits, an optional point and an optional exponent, with at least one digit
    before the exponent. -/
def unsigned? (neg : Bool) (cs : List Char) : Option Binary64 :=
  let whole := cs.takeWhile Char.isDigit
  let rest := cs.dropWhile Char.isDigit
  let (fraction, tail) :=
    match rest with
    | '.' :: more => (more.takeWhile Char.isDigit, more.dropWhile Char.isDigit)
    | _ => ([], rest)
  let digits := whole ++ fraction
  if digits.isEmpty then none
  else
    let number (e : Int) := ofDecimal neg (Text.ofDigits digits) (e - fraction.length)
    match tail with
    | [] => some (number 0)
    | c :: more => if c = 'e' || c = 'E' then (exponent? more).map number else none

/-- The names of infinity and NaN, in any case.  A sign before a NaN is kept.  Part of a
    name is none. -/
def named? (neg : Bool) (cs : List Char) : Option Binary64 :=
  let name := String.ofList (Text.lower cs)
  if name = "inf" || name = "infinity" then some (ofParts neg infinityBits)
  else if name = "nan" then some (ofParts neg (infinityBits + 2 ^ 51))
  else none

/-- A number or a name, with an optional sign.  Names are tried last, as none of them
    begins like a number. -/
def read? (cs : List Char) : Option Binary64 :=
  let (neg, body) :=
    match cs with
    | '-' :: rest => (true, rest)
    | '+' :: rest => (false, rest)
    | _ => (false, cs)
  (unsigned? neg body).orElse fun _ => named? neg body

end Gridbase.Binary64
