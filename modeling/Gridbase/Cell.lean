import Gridbase.Binary64.Reading
import Gridbase.Date.Reading
import Gridbase.Decimal.Reading
import Gridbase.Moment.Serial
import Gridbase.Schema.Column
import Gridbase.Value

/-! # Cells

    The typed value of a cell text, or the reason why it has none. -/

namespace Gridbase

/-- Why a cell text is not a value of its column.  A fault carries the bound that was
    missed, if there is one. -/
inductive CellFault
  | notInteger
  | notDecimal (precision scale : Option UInt8)
  | notBoolean
  | tooLong (limit : UInt32)
  | notDate
  | badSerial
  | dateOutOfRange
deriving DecidableEq

/-- A cell for a message: its column, its row and its text.  The row is that of the
    sheet, counted from 1, so that the first data row is row 2. -/
structure CellPlace where
  column : String
  row : Nat
  text : String
deriving DecidableEq

namespace CellPlace

/-- The column and the row, as all messages about cells say them. -/
def position (p : CellPlace) : String :=
  "for column '" ++ p.column ++ "' at row " ++ Text.ofNat p.row

/-- The column, the row and the text that was found. -/
def found (p : CellPlace) : String := p.position ++ ", got '" ++ p.text ++ "'."

end CellPlace

namespace CellFault

/-- A number that may not be stated. -/
def statedText (n : Option UInt8) : String :=
  match n with
  | some n => Text.ofNat n.toNat
  | none => ""

/-- What is wrong with the cell at a place. -/
def message (p : CellPlace) : CellFault → String
  | .notInteger => "Expected integer " ++ p.found
  | .notDecimal precision scale =>
      "Expected decimal with precision " ++ statedText precision ++ " and scale "
        ++ statedText scale ++ " " ++ p.found
  | .notBoolean => "Expected boolean " ++ p.found
  | .tooLong limit => "String length exceeds " ++ Text.ofNat limit.toNat ++ " " ++ p.found
  | .notDate => "Expected datetime " ++ p.found
  | .badSerial => "Invalid spreadsheet serial date '" ++ p.text ++ "' " ++ p.position ++ "."
  | .dateOutOfRange =>
      "Date '" ++ p.text ++ "' " ++ p.position
        ++ " is outside the supported range (1753-01-01 to 9999-12-31)."

end CellFault

namespace Cell

/-! ## Numbers -/

/-- A 32-bit integer, although values have room for 64 bits.  Blanks around it and a
    plus sign are allowed. -/
def integer? (cs : List Char) : Option Value :=
  (Text.readInt? (Text.trim cs)).bind fun z =>
    if -2 ^ 31 ≤ z && z < 2 ^ 31 then some (.int (Int64.ofInt z)) else none

/-- The places before the point, at least one: a number without any has a zero there,
    written or not. -/
def integerDigits (d : Decimal) : Nat := max (d.digitCount - d.scale) 1

/-- The decimal has room in a column of the given precision and scale; without
    both of them any decimal has. -/
def hasRoom (precision scale : Option UInt8) (d : Decimal) : Bool :=
  match precision, scale with
  -- one of both alone restricts nothing
  | some p, some s => integerDigits d + d.scale ≤ p.toNat && d.scale ≤ s.toNat
  | _, _ => true

/-- A decimal; commas do not count, wherever they stand. -/
def decimal? (precision scale : Option UInt8) (cs : List Char) : Option Decimal :=
  (Decimal.read? ((Text.trim cs).filter (· != ','))).bind fun d =>
    if hasRoom precision scale d then some d else none

/-- A truth value, as a digit or as a word in any case. -/
def boolean? (cs : List Char) : Option Bool :=
  let t := Text.trim cs
  if t = ['1'] || Text.sameFolded t "true".toList then some true
  else if t = ['0'] || Text.sameFolded t "false".toList then some false
  else none

/-! ## Dates -/

/-- The earliest date of the supported range. -/
def minDate : Date := { year := 1753, month := 1, day := 1 }

/-- The date belongs to the supported range, 1753-01-01 to 9999-12-31. -/
def isSupported (d : Date) : Bool := 1753 ≤ d.year && d.year ≤ 9999

/-- A date in one of the layouts, tried in order.  The layout with dashes takes
    texts of ten bytes only. -/
def textDate? (cs : List Char) : Option Date :=
  (Date.read? Date.slashed cs).orElse fun _ =>
    (if (String.ofList cs).utf8ByteSize = 10 then Date.read? Date.dashed cs else none).orElse
      fun _ => Date.read? Date.monthFirst cs

/-- A moment: a serial if the text is a number, and else the start of a date. -/
def anyMoment (cs : List Char) : Except CellFault Moment :=
  let t := Text.trim cs
  match Binary64.read? t with
  -- a number is a serial and never a date, even where it is out of range
  | some serial =>
      match Moment.ofSerial? serial with
      | some m => .ok m
      | none => .error .badSerial
  | none =>
      match textDate? t with
      | some d => .ok { date := d }
      | none => .error .notDate

/-- A moment within the supported range, which is narrower than that of serials. -/
def moment (cs : List Char) : Except CellFault Moment :=
  match anyMoment cs with
  | .ok m => if isSupported m.date then .ok m else .error .dateOutOfRange
  | .error fault => .error fault

/-! ## Values -/

/-- The value of a text in a column, given the type of the column.  Only decimals and
    texts look at the rest of the metadata. -/
def read (type : DataType) (info : ColumnInfo) (text : String) : Except CellFault Value :=
  let cs := text.toList
  match type with
  | .integer => (integer? cs).elim (.error .notInteger) .ok
  | .decimal =>
      (decimal? info.precision info.scale cs).elim
        (.error (.notDecimal info.precision info.scale)) fun d => .ok (.decimal d)
  | .dateTime => (moment cs).map .moment
  | .boolean => (boolean? cs).elim (.error .notBoolean) fun b => .ok (.bool b)
  | .string =>
      -- the text is kept as it stands, blanks around it included
      match info.length with
      | some limit => if limit.toNat < cs.length then .error (.tooLong limit) else .ok (.text text)
      | none => .ok (.text text)

/-- The value that stands in for a missing one where a column holds no NULL.  It is
    always reported as well. -/
def substitute : DataType → Value
  | .integer => .int 0
  | .decimal => .decimal Decimal.zero
  | .dateTime => .moment { date := minDate }
  | .boolean => .bool false
  | .string => .text ""

end Cell

end Gridbase
