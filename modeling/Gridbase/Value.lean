import Gridbase.Binary64.Shortest
import Gridbase.Decimal
import Gridbase.Moment
import Gridbase.Text.Quoted

/-! # Values

    The values that cells, rows and statement parameters hold, their equality,
    and their two texts: the literal of a statement and the text for a reader. -/

namespace Gridbase

/-- A value of a table cell, as programs give and take it.  A database stores some of
    these kinds as texts or numbers. -/
inductive Value
  | null
  | bool (b : Bool)
  | int (n : Int64)
  | float (x : Binary64)
  | decimal (d : Decimal)
  | text (s : String)
  | moment (m : Moment)
  | blob (bytes : List UInt8)
deriving DecidableEq

namespace Value

instance : Inhabited Value := ⟨.null⟩

/-- The value is NULL. -/
def isNull : Value → Bool
  | .null => true
  | _ => false

/-- Equality of what the values stand for: floats compare as numbers and
    decimals regardless of their scales. -/
def equal : Value → Value → Bool
  | .float x, .float y => x.equal y
  | .decimal a, .decimal b => a.equal b
  | a, b => a == b

/-- Upper case hexadecimal digits, two for each byte. -/
def hexText (bytes : List UInt8) : String := String.ofList (bytes.flatMap Text.hexByte)

/-- The literal that denotes the value inside a statement.  Only defaults are written
    in this way; all other values are bound. -/
def literal : Value → String
  | .null => "NULL"
  | .bool b => if b then "1" else "0"
  | .int n => Text.ofInt n.toInt
  | .float x => x.plainText
  | .decimal d => d.text
  | .text s => Text.quoted '\'' '\'' s
  | .moment m => "'" ++ m.text ++ "'"
  | .blob bytes => "X'" ++ hexText bytes ++ "'"

/-- The text for a reader.  It has no quotes, and of bytes it gives only how many there
    are. -/
def display : Value → String
  | .null => "NULL"
  | .bool b => if b then "true" else "false"
  | .int n => Text.ofInt n.toInt
  | .float x => x.plainText
  | .decimal d => d.text
  | .text s => s
  | .moment m => m.text
  | .blob bytes => "<" ++ Text.ofNat bytes.length ++ " bytes>"

end Value

end Gridbase
