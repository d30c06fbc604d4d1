/-! # Column letters

    The letters that name the columns of a sheet: a numbering in base 26 whose
    digits are the letters, without a zero. -/

namespace Gridbase.Sheet

/-- The letter for a digit from 0 to 25. -/
def letter (digit : Nat) : Char := Char.ofNat ('A'.toNat + digit)

/-- The letters of a column, the last one first.  There is no letter for zero, so
    that one is taken off before each division. -/
def reversedLetters (col : Nat) : List Char :=
  if h : col = 0 then []
  else letter ((col - 1) % 26) :: reversedLetters ((col - 1) / 26)
termination_by col
decreasing_by omega

/-- The letters of a column: 1 is `A`, 27 is `AA`, and 0 has none. -/
def columnLetters (col : UInt32) : String := String.ofList (reversedLetters col.toNat).reverse

end Gridbase.Sheet
