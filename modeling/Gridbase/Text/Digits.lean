import Gridbase.Text

/-! # Digits

    Whole numbers as text: writing in base ten or sixteen, padding with
    zeros, and reading unsigned and signed digit strings. -/

namespace Gridbase.Text

-- Powers of whole numbers are those of the core library, whatever else is imported.
attribute [instance (20000), default_instance 20000] instPowNat

/-- The base ten digits of a number. -/
def digits (n : Nat) : List Char := Nat.toDigits 10 n

/-- The base ten text of a number. -/
def ofNat (n : Nat) : String := String.ofList (digits n)

/-- The base ten text of an integer, a minus sign before a negative one. -/
def ofInt : Int → String
  | .ofNat n => ofNat n
  | .negSucc n => "-" ++ ofNat (n + 1)

/-- Digits filled up with leading zeros to a width.  A number that is wider keeps
    all of its digits. -/
def padded (width n : Nat) : List Char :=
  List.replicate (width - (digits n).length) '0' ++ digits n

/-- The value of an ASCII digit. -/
def digitValue (c : Char) : Nat := c.toNat - '0'.toNat

/-- The number written by a string of ASCII digits.  It means nothing for other
    texts, which the readers below exclude first. -/
def ofDigits (cs : List Char) : Nat := Nat.ofDigitChars 10 cs 0

/-- A number written with at least one ASCII digit and nothing else. -/
def digitsOnly? (cs : List Char) : Option Nat :=
  if cs.isEmpty || !cs.all Char.isDigit then none else some (ofDigits cs)

/-- A number that may carry a plus sign.  Zeros in front are allowed. -/
def readNat? : List Char → Option Nat
  | '+' :: cs => digitsOnly? cs
  | cs => digitsOnly? cs

/-- A number that may carry either sign.  A sign alone is no number, and neither is
    a digit of another script. -/
def readInt? : List Char → Option Int
  | '+' :: cs => (digitsOnly? cs).map Int.ofNat
  | '-' :: cs => (digitsOnly? cs).map fun n => -Int.ofNat n
  | cs => (digitsOnly? cs).map Int.ofNat

/-- The two upper case hexadecimal digits of a byte. -/
def hexByte (b : UInt8) : List Char :=
  let digit (n : Nat) : Char :=
    if n < 10 then Char.ofNat ('0'.toNat + n) else Char.ofNat ('A'.toNat + (n - 10))
  [digit (b.toNat / 16), digit (b.toNat % 16)]

/-- The value of a hexadecimal digit of either case. -/
def hexValue? (c : Char) : Option Nat :=
  if '0' ≤ c && c ≤ '9' then some (c.toNat - '0'.toNat)
  else if 'a' ≤ c && c ≤ 'f' then some (c.toNat - 'a'.toNat + 10)
  else if 'A' ≤ c && c ≤ 'F' then some (c.toNat - 'A'.toNat + 10)
  else none

end Gridbase.Text
