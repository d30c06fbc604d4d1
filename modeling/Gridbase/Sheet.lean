import Gridbase.Binary64
import Gridbase.Date

/-! # Sheets

    A grid of cell texts with the decorations of an input form: styles, rules
    for input, and protection.  Rows and columns are counted from 1; a cell
    outside the grid is blank, and writing one grows the grid. -/

namespace Gridbase

/-! ## Decorations -/

/-- How a cell or a column looks, and whether protection locks it.  A style replaces an
    earlier one as a whole. -/
structure Style where
  bold : Bool := false
  fill : Option String := none
  locked : Bool := false
deriving DecidableEq

/-- The style of one cell. -/
structure StyledCell where
  row : UInt32
  col : UInt32
  style : Style
deriving DecidableEq

/-- The style of the cells of one column. -/
structure StyledColumn where
  col : UInt32
  style : Style
deriving DecidableEq

/-- What a cell accepts as input.  Numbers and dates are bounded below only. -/
inductive InputRule
  | wholeNumber (min : Int64)
  | decimal (min : Binary64)
  | date (min : Date)
  | list (items : List String)
  | custom (formula : String)
deriving DecidableEq

/-- The message shown when input is refused. -/
structure Alert where
  title : String
  message : String
deriving DecidableEq

/-- A rule over a range of cells.  The range is a text, and is not checked. -/
structure Validation where
  range : String
  rule : InputRule
  ignoreBlank : Bool := true
  alert : Option Alert := none
deriving DecidableEq

/-- What remains allowed on a protected sheet. -/
structure Protection where
  deleteColumns : Bool
  insertColumns : Bool
  deleteRows : Bool
  insertRows : Bool
  sort : Bool
  formatColumns : Bool
  selectLockedCells : Bool
  selectUnlockedCells : Bool
deriving DecidableEq

/-! ## The grid -/

/-- Cell texts by row, and the decorations in the order they were made.  Rows may be of
    different lengths. -/
structure Sheet where
  name : String := ""
  rows : List (List String) := []
  cellStyles : List StyledCell := []
  columnStyles : List StyledColumn := []
  validations : List Validation := []
  protection : Option Protection := none
deriving DecidableEq

namespace Sheet

/-- The sheet of some rows; the first one holds the headers. -/
def ofRows (rows : List (List String)) : Sheet := { rows }

/-- The text at a position counted from zero; blank outside the rows. -/
def textAt (rows : List (List String)) (row col : Nat) : String :=
  ((rows[row]?).bind fun cells => cells[col]?).getD ""

/-- The text of a cell; there is no row or column zero. -/
def cell (s : Sheet) (row col : UInt32) : String :=
  if row = 0 || col = 0 then "" else textAt s.rows (row.toNat - 1) (col.toNat - 1)

/-- The text of a header cell. -/
def header (s : Sheet) (col : UInt32) : String := s.cell 1 col

/-- The style that was set for a cell itself.  That of its column is not looked up. -/
def cellStyle? (s : Sheet) (row col : UInt32) : Option Style :=
  (s.cellStyles.find? fun c => c.row = row && c.col = col).map StyledCell.style

/-- The style that was set for a column. -/
def columnStyle? (s : Sheet) (col : UInt32) : Option Style :=
  (s.columnStyles.find? fun c => c.col = col).map StyledColumn.style

/-! ## Writing -/

/-- Changes the item at a position, filling the list up to it.  The list never becomes
    shorter, and only the one item changes. -/
def updateAt {α : Type} (fill : α) (f : α → α) : Nat → List α → List α
  | 0, [] => [f fill]
  | 0, a :: rest => f a :: rest
  | n + 1, [] => fill :: updateAt fill f n []
  | n + 1, a :: rest => a :: updateAt fill f n rest

/-- Names the sheet. -/
def rename (s : Sheet) (name : String) : Sheet := { s with name }

/-- Writes a cell; nothing happens in row or column zero.  The grid grows as far as it
    has to, with empty texts. -/
def setCell (s : Sheet) (row col : UInt32) (text : String) : Sheet :=
  if row = 0 || col = 0 then s
  else
    { s with
      rows := updateAt [] (updateAt "" (fun _ => text) (col.toNat - 1)) (row.toNat - 1) s.rows }

/-- Replaces the style of a cell, or adds it at the end.  So a cell has one style at
    most. -/
def putCellStyle (row col : UInt32) (style : Style) : List StyledCell → List StyledCell
  | [] => [⟨row, col, style⟩]
  | c :: rest =>
      if c.row = row && c.col = col then { c with style } :: rest
      else c :: putCellStyle row col style rest

/-- Replaces the style of a column, or adds it at the end.  So a column has one style at
    most. -/
def putColumnStyle (col : UInt32) (style : Style) : List StyledColumn → List StyledColumn
  | [] => [⟨col, style⟩]
  | c :: rest =>
      if c.col = col then { c with style } :: rest else c :: putColumnStyle col style rest

/-- Styles a cell. -/
def setCellStyle (s : Sheet) (row col : UInt32) (style : Style) : Sheet :=
  { s with cellStyles := putCellStyle row col style s.cellStyles }

/-- Styles a column. -/
def setColumnStyle (s : Sheet) (col : UInt32) (style : Style) : Sheet :=
  { s with columnStyles := putColumnStyle col style s.columnStyles }

/-- Adds a rule for input.  A second rule over one range stands beside the first. -/
def addValidation (s : Sheet) (v : Validation) : Sheet :=
  { s with validations := s.validations ++ [v] }

/-- Protects the sheet. -/
def protect (s : Sheet) (p : Protection) : Sheet := { s with protection := some p }

end Sheet

end Gridbase
