import Gridbase.Binary64.Reading
import Gridbase.Store.Stored

/-! # Column affinity

    The declared type of a column prefers a class of content.  Content is
    converted to it when it is stored, and to a lesser degree when it is compared
    with the column; what cannot be converted without loss stays as it is. -/

namespace Gridbase

/-- The class of content that a column prefers.  Content that is not of the class is
    converted if nothing is lost. -/
inductive Affinity
  | integer
  | text
  | none
  | real
  | numeric
deriving DecidableEq

/-! ## Numbers as text -/

namespace NumberText

/-- The blanks around a number: those of ASCII only, unlike the blanks of a cell
    text in a sheet. -/
def isSpace (c : Char) : Bool := c = ' ' || (9 ≤ c.toNat && c.toNat ≤ 13)

/-- The text without blanks around it. -/
def strip (cs : List Char) : List Char :=
  ((cs.dropWhile isSpace).reverse.dropWhile isSpace).reverse

/-- An integer, if the text is a plain integer that 64 bits hold. -/
def integer? (cs : List Char) : Option Int64 :=
  (Text.readInt? cs).bind fun z =>
    if -2 ^ 63 ≤ z && z < 2 ^ 63 then some (Int64.ofInt z) else none

/-- The text has the characters of a number only.  This keeps out the names of
    infinity and NaN, which are texts to the database. -/
def isNumeral (cs : List Char) : Bool :=
  cs.all fun c => c.isDigit || c = '.' || c = '+' || c = '-' || c = 'e' || c = 'E'

/-- The number that a text is, blanks around it aside.  A text that is a number only in
    part is none. -/
def read? (s : String) : Option Stored :=
  let cs := strip s.toList
  match integer? cs with
  | some n => some (.integer n)
  | none => if isNumeral cs then (Binary64.read? cs).map .real else none

/-- The quotient rounded to the nearest whole number, a half away from zero. -/
def roundHalfUp (n d : Nat) : Nat := (2 * n + d) / (2 * d)

/-- The number of digits that a real number is written with. -/
def precision : Nat := 15

/-- A magnitude in units as a whole number of `10 ^ p`. -/
def onPower (magnitude : Nat) (p : Int) : Nat :=
  if 0 ≤ p then roundHalfUp magnitude (2 ^ 1074 * 10 ^ p.toNat)
  else roundHalfUp (magnitude * 10 ^ (-p).toNat) (2 ^ 1074)

/-- The significant digits and the exponent of the first of them.  There are as many as
    the precision of the database, whatever the shortest digits are. -/
def significant (x : Binary64) : Nat × Int :=
  -- the shortest digits say where the first one stands, or one place beside it
  let (c, p) := Binary64.shortest x.absBits
  let first : Int := p + (Text.digits c).length - 1
  let digits := onPower x.magnitude (first - (precision - 1))
  -- rounding up may carry into a new place
  if 10 ^ precision ≤ digits then (digits / 10, first + 1)
  else if digits < 10 ^ (precision - 1) then
    (onPower x.magnitude (first - precision), first - 1)
  else (digits, first)

/-- The digits after the point without trailing zeros, but at least one. -/
def trimZeros (cs : List Char) : List Char :=
  let kept := (cs.reverse.dropWhile (· == '0')).reverse
  if kept.isEmpty then ['0'] else kept

/-- The exponent: its sign and at least two digits. -/
def exponentText (e : Int) : List Char :=
  'e' :: (if e < 0 then '-' else '+') :: Text.padded 2 e.natAbs

/-- A real number as text: 15 digits, a point, and an exponent for very large and
    very small numbers. -/
def ofReal (x : Binary64) : String :=
  let sign := if x.negative then "-" else ""
  if !x.isFinite then sign ++ "Inf"
  else if x.absBits = 0 then "0.0"
  else
    let (digits, first) := significant x
    let cs := Text.digits digits
    let body : List Char :=
      if first < -4 || precision - 1 < first then
        cs.take 1 ++ '.' :: trimZeros (cs.drop 1) ++ exponentText first
      else if first < 0 then
        '0' :: '.' :: trimZeros (List.replicate (-first - 1).toNat '0' ++ cs)
      else
        let whole := first.toNat + 1
        cs.take whole ++ '.' :: trimZeros (cs.drop whole)
    sign ++ String.ofList body

end NumberText

namespace Affinity

/-- The affinity of a declared type: the first rule that a word in it meets.  The
    words are sought anywhere, so that `POINT` is an integer type. -/
def ofDeclared (declared : String) : Affinity :=
  let upper := Text.upper declared.toList
  let mentions (word : String) : Bool := Text.occursIn word.toList upper
  if mentions "INT" then .integer
  else if mentions "CHAR" || mentions "CLOB" || mentions "TEXT" then .text
  else if mentions "BLOB" || upper.isEmpty then .none
  else if mentions "REAL" || mentions "FLOA" || mentions "DOUB" then .real
  else .numeric

/-- A whole real number that 64 bits hold, as an integer.  Any other number stays as it
    is. -/
def wholeNumber (x : Binary64) : Stored :=
  -- the ends of the range stay real: larger numbers cut to 64 bits end there too
  if x.isWhole && -2 ^ 63 < x.truncate && x.truncate < 2 ^ 63 - 1 then
    .integer (Int64.ofInt x.truncate)
  else .real x

/-- A number as text; all else stays.  A real number keeps its point. -/
def toText : Stored → Stored
  | .integer n => .text (Text.ofInt n.toInt)
  | .real x => .text (NumberText.ofReal x)
  | s => s

/-- Text that is a number as that number; all else stays. -/
def toNumber : Stored → Stored
  | .text s => (NumberText.read? s).getD (.text s)
  | s => s

/-- A number as an integer if it is whole; all else stays. -/
def toWhole : Stored → Stored
  | .real x => wholeNumber x
  | s => s

/-- An integer as a real number; all else stays. -/
def toReal : Stored → Stored
  | .integer n => .real (Binary64.ofInt n.toInt)
  | s => s

/-- The content that a column stores.  A column of real numbers takes whole numbers
    as integers first, so that it has one zero only. -/
def store : Affinity → Stored → Stored
  | .text, s => toText s
  | .none, s => s
  | .real, s => toReal (toWhole (toNumber s))
  | .integer, s => toWhole (toNumber s)
  | .numeric, s => toWhole (toNumber s)

/-- The content that a column is compared with.  Nothing is made whole here: integers
    and real numbers compare by their values anyway. -/
def operand : Affinity → Stored → Stored
  | .text, s => toText s
  | .none, s => s
  | _, s => toNumber s

end Affinity

end Gridbase
