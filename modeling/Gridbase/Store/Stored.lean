import Gridbase.Value

/-! # Stored values

    What a table cell holds: NULL, an integer, a real number, text or bytes.
    The classes are ordered in this way, numbers by their value, and texts and
    bytes from left to right. -/

namespace Gridbase

/-- The content of a table cell.  There are fewer kinds than of values: what a value is
    stored as depends on its column. -/
inductive Stored
  | null
  | integer (n : Int64)
  | real (x : Binary64)
  | text (s : String)
  | blob (bytes : List UInt8)
deriving DecidableEq

namespace Stored

instance : Inhabited Stored := ⟨.null⟩

/-- The content that a value is bound as: a truth value is 0 or 1, decimals and
    moments are text, and NaN is NULL. -/
def ofValue : Value → Stored
  | .null => .null
  | .bool b => .integer (if b then 1 else 0)
  | .int n => .integer n
  | .float x => if x.isNaN then .null else .real x
  | .decimal d => .text d.text
  | .text s => .text s
  | .moment m => .text m.text
  | .blob bytes => .blob bytes

/-- The value that a cell is read as.  The class alone decides: truth values, decimals
    and moments come back as the integers and texts that they were stored as. -/
def toValue : Stored → Value
  | .null => .null
  | .integer n => .int n
  | .real x => .float x
  | .text s => .text s
  | .blob bytes => .blob bytes

/-- The cell holds NULL. -/
def isNull : Stored → Bool
  | .null => true
  | _ => false

/-! ## Order -/

/-- The position of a class in the order of classes.  Integers and real numbers are of
    one class. -/
def rank : Stored → Nat
  | .null => 0
  | .integer _ => 1
  | .real _ => 1
  | .text _ => 2
  | .blob _ => 3

/-- The exact value of a number, in units of a double.  An integer is not rounded to
    a double first, so that large ones are told apart from their neighbours. -/
def units : Stored → Int
  | .integer n => n.toInt * 2 ^ 1074
  | .real x => x.units
  | _ => 0

/-- Compares integers. -/
def compareInt (a b : Int) : Ordering := if a < b then .lt else if b < a then .gt else .eq

/-- Compares lists of numbers from left to right. -/
def compareList : List Nat → List Nat → Ordering
  | [], [] => .eq
  | [], _ :: _ => .lt
  | _ :: _, [] => .gt
  | a :: as, b :: bs => if a < b then .lt else if b < a then .gt else compareList as bs

/-- Compares cells: by class, and within a class by content.  NULL comes first. -/
def compare : Stored → Stored → Ordering
  -- code points are in the order of the bytes that encode them
  | .text a, .text b => compareList (a.toList.map Char.toNat) (b.toList.map Char.toNat)
  | .blob a, .blob b => compareList (a.map UInt8.toNat) (b.map UInt8.toNat)
  | a, b =>
      if a.rank < b.rank then .lt
      else if b.rank < a.rank then .gt
      else compareInt a.units b.units

/-- Two cells that compare as equal. -/
def same (a b : Stored) : Bool := a.compare b == .eq

end Stored

end Gridbase
