import Gridbase.Decimal.Reading
import Gridbase.Proofs.Text.Digits
import Mathlib.Algebra.Order.Field.Rat
import Mathlib.Tactic.FieldSimp
import Mathlib.Tactic.Ring

/-! # The number that a text denotes

    Digits with at most one point among them and an optional sign, and after a mark the power of
    ten that they are taken times.  What a text denotes is said here of the text as a whole
    (`denoted?`); how it is read is another matter.

    Separators do not count among the digits.  They belong between them (`spaced`). -/

namespace Gridbase.Decimal

open Gridbase.Text

/-- The number that a decimal is. -/
def number (d : Decimal) : ℚ := d.coefficient / 10 ^ d.scale

/-! ## Numbers as they are written -/

/-- The digits of a number, how many of them stand after the point, and its exponent.
    It is a notation and not a number: `1.50` and `1.5` are two of them. -/
structure Written where
  coefficient : Int
  places : Nat
  exponent : Int
deriving DecidableEq

namespace Written

/-- The number that is written. -/
def number (w : Written) : ℚ := w.coefficient / 10 ^ w.places * 10 ^ w.exponent

/-- The decimal places that are left when the exponent has moved the point. -/
def decimals (w : Written) : Nat := (w.places - w.exponent).toNat

/-- The digits when the exponent has moved the point. -/
def digits (w : Written) : Int := w.coefficient * 10 ^ (w.exponent - w.places).toNat

theorem digits_of_le {w : Written} (h : w.exponent ≤ w.places) : w.digits = w.coefficient := by
  have hnone : (w.exponent - w.places).toNat = 0 := by omega
  rw [digits, hnone, Int.pow_zero, Int.mul_one]

theorem decimals_of_le {w : Written} (h : w.places ≤ w.exponent) : w.decimals = 0 := by
  rw [decimals]
  omega

/-- A number can be written without an exponent. -/
theorem number_eq (w : Written) : w.number = w.digits / 10 ^ w.decimals := by
  have hten : (10 : ℚ) ≠ 0 := by norm_num
  rcases Int.le_total w.places w.exponent with h | h
  · -- the point moves past all places
    obtain ⟨n, hn⟩ := Int.le.dest h
    have hup : (w.exponent - w.places).toNat = n := by omega
    rw [decimals_of_le h, number, digits, hup, ← hn, zpow_add₀ hten, zpow_natCast, zpow_natCast]
    push_cast
    field_simp
  · -- some places are left, or more of them than were written
    obtain ⟨n, hn⟩ := Int.le.dest h
    have hleft : (w.places - w.exponent).toNat = n := by omega
    rw [digits_of_le h, number, decimals, hleft, ← zpow_natCast 10 w.places, ← hn,
      zpow_add₀ hten, zpow_natCast]
    field_simp

end Written

/-! ## Texts -/

/-- The part before the point. -/
def wholePart (cs : List Char) : List Char := cs.takeWhile (· != '.')

/-- The part after the point. -/
def fractionPart (cs : List Char) : List Char := (cs.dropWhile (· != '.')).tail

/-- A text without its separators. -/
def unspaced (cs : List Char) : List Char := cs.filter (· != '_')

/-- Digits with at most one point among them, as a whole number and its places.  A
    second point would be among the digits, and is refused there. -/
def digits? (cs : List Char) : Option (Nat × Nat) :=
  (digitsOnly? (wholePart cs ++ fractionPart cs)).map fun n => (n, (fractionPart cs).length)

/-- The sign of a text. -/
def sign : List Char → Int
  | '-' :: _ => -1
  | _ => 1

/-- A text without its sign. -/
def unsigned : List Char → List Char
  | '-' :: cs | '+' :: cs => cs
  | cs => cs

/-- The part before the exponent. -/
def base (cs : List Char) : List Char := cs.takeWhile fun c => !isExponentMark c

/-- The digits of an exponent, which may have either sign. -/
def power? : List Char → Option Int
  | '-' :: rest => (readNat? rest).map fun n : Nat => -(n : Int)
  | rest => (readNat? rest).map fun n : Nat => (n : Int)

/-- The exponent, zero if there is none. -/
def exponent? (cs : List Char) : Option Int :=
  match cs.dropWhile fun c => !isExponentMark c with
  | [] => some 0
  | _ :: rest => power? rest

/-- The number of a text as it is written there.  Separators may stand in front of the
    exponent only. -/
def written? (cs : List Char) : Option Written :=
  (digits? (unspaced (unsigned (base cs)))).bind fun r =>
    (exponent? cs).map fun e =>
      { coefficient := sign (base cs) * r.1, places := r.2, exponent := e }

/-- The number that a text denotes, as a rational: this is the measure for what a
    decimal should be read as. -/
def denoted? (cs : List Char) : Option ℚ := (written? cs).map Written.number

/-- Every separator has a digit before it and one after it, though not always next to
    it. -/
def spaced : (seen : Bool) → List Char → Bool
  | _, [] => true
  | seen, c :: cs =>
      (c != '_' || seen && cs.any Char.isDigit) && spaced (seen || c.isDigit) cs

end Gridbase.Decimal
