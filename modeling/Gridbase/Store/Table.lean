import Gridbase.Row
import Gridbase.Store.Affinity
import Gridbase.Store.Fault

/-! # Tables of the store

    A table is its columns and its rows in the order they were added.  A column
    declared as an INTEGER PRIMARY KEY holds the row number and numbers new rows;
    every other key column admits no content twice. -/

namespace Gridbase

/-- A column of a table, with the content that it takes when nothing is written. -/
structure StoredColumn where
  name : String
  declaredType : String
  notNull : Bool := false
  primaryKey : Bool := false
  preset : Stored := .null
deriving DecidableEq

namespace StoredColumn

/-- The affinity of the column. -/
def affinity (c : StoredColumn) : Affinity := Affinity.ofDeclared c.declaredType

/-- The column holds the row number.  Only the type `INTEGER`, spelled out, makes it
    do so; a key of type `INT` is an ordinary column. -/
def isRowNumber (c : StoredColumn) : Bool :=
  c.primaryKey && Text.sameName c.declaredType "INTEGER"

end StoredColumn

/-- The cells of a row, one for each column. -/
abbrev Cells := List Stored

/-- A table.  The written name and the definition make up its stored statement. -/
structure Table where
  name : String
  writtenName : String
  definition : String
  generated : Bool
  columns : List StoredColumn
  rows : List Cells := []
deriving DecidableEq

namespace Table

/-- The statement that made the table, under its present name. -/
def sql (t : Table) : String := "CREATE TABLE " ++ t.writtenName ++ t.definition

/-! ## Columns -/

/-- The position of a column, the first of the name in any case.  A table that was made
    has no two columns of one name. -/
def position? (t : Table) (name : String) : Option Nat :=
  t.columns.findIdx? fun c => Text.sameName c.name name

/-- The position of the row number. -/
def rowNumber? (t : Table) : Option Nat := t.columns.findIdx? StoredColumn.isRowNumber

/-- The position of the key. -/
def key? (t : Table) : Option Nat := t.columns.findIdx? StoredColumn.primaryKey

/-- The name of a column as declared. -/
def columnName (t : Table) (i : Nat) : String := (t.columns[i]?.map StoredColumn.name).getD ""

/-- The content of a cell. -/
def cellAt (cells : Cells) (i : Nat) : Stored := (cells[i]?).getD .null

/-- The integer in a cell, zero if there is none. -/
def integerAt (cells : Cells) (i : Nat) : Int :=
  match cellAt cells i with
  | .integer n => n.toInt
  | _ => 0

/-- The rows in the order they are visited: by row number, if a column holds it. -/
def scan (t : Table) : List Cells :=
  match t.rowNumber? with
  | some i => t.rows.mergeSort fun a b => integerAt a i ≤ integerAt b i
  | none => t.rows

/-! ## New rows -/

/-- The content written to a column, if it is among the entries.  It is converted as the
    column prefers. -/
def written? (entries : List Entry) (c : StoredColumn) : Option Stored :=
  (entries.find? fun e => Text.sameName e.name c.name).map fun e =>
    c.affinity.store (Stored.ofValue e.value)

/-- The content of a column that is not written: its preset.  The row number has
    none, so that it is left to the table. -/
def unwritten (c : StoredColumn) : Stored :=
  if c.isRowNumber then .null else c.affinity.store c.preset

/-- The cells of a new row: what is written, and the content of the other columns. -/
def assemble (columns : List StoredColumn) (entries : List Entry) : Cells :=
  columns.map fun c => (written? entries c).getD (unwritten c)

/-- The first column without NULL that a row leaves NULL; the row number does not
    count. -/
def missing? (columns : List StoredColumn) (cells : Cells) : Option StoredColumn :=
  ((columns.zip cells).find? fun p => p.1.notNull && !p.1.isRowNumber && p.2.isNull).map Prod.fst

/-- A row has the given content in a cell; NULL is never found.  A key column that is
    not the row number may therefore hold NULL in many rows. -/
def holdsKey (i : Nat) (key : Stored) (cells : Cells) : Bool :=
  !key.isNull && (cellAt cells i).same key

/-- The greatest row number, zero without rows.  Numbers may be negative. -/
def greatestNumber (i : Nat) : List Cells → Int
  | [] => 0
  -- not the maximum with zero: all numbers may be negative
  | [cells] => integerAt cells i
  | cells :: rest => max (integerAt cells i) (greatestNumber i rest)

/-- The least positive number that no row has; one of the first `count` is free. -/
def freeNumber (i : Nat) (rows : List Cells) (count : Nat) : Int :=
  (((List.range count).map fun (n : Nat) => (n : Int) + 1).find? fun n =>
    rows.all fun cells => integerAt cells i != n).getD (count + 1)

/-- The number of a new row that is given none: after every other row, and in a
    generated column after every number ever used.  When the numbers are used up, a
    generated column has none left and another takes a free one. -/
def nextNumber (t : Table) (i : Nat) (lastUsed : Int) : Except StoreFault Int64 :=
  let next := greatestNumber i t.rows + 1
  -- the record outlives the rows, so that a number is not given out twice
  let next := if t.generated then max next (lastUsed + 1) else next
  if next < 2 ^ 63 then .ok (Int64.ofInt next)
  else if t.generated then .error .keysExhausted
  else .ok (Int64.ofInt (freeNumber i t.rows t.rows.length))

/-- Numbers a new row, if a column holds the row number.  A number that is given stays.
    -/
def numbered (t : Table) (lastUsed : Int) (cells : Cells) : Except StoreFault Cells :=
  match t.rowNumber? with
  | none => .ok cells
  | some i =>
      match cellAt cells i with
      | .null => do return cells.set i (.integer (← t.nextNumber i lastUsed))
      | .integer _ => .ok cells
      | _ => .error .keyMismatch

/-- Refuses a row that leaves out what is needed or repeats a key.  NULL repeats
    nothing.  -/
def accept (t : Table) (others : List Cells) (cells : Cells) : Except StoreFault Unit :=
  -- a missing value is reported before a repeated key
  match missing? t.columns cells with
  | some c => .error (.missingValue t.name c.name)
  | none =>
      match t.key? with
      | none => .ok ()
      | some i =>
          if others.any (holdsKey i (cellAt cells i)) then
            .error (.duplicateKey t.name (t.columnName i))
          else .ok ()

/-- The row that an insertion adds.  It gets its number before it is checked, so that
    a key left out cannot be one that another row has. -/
def newRow (t : Table) (lastUsed : Int) (entries : List Entry) : Except StoreFault Cells := do
  let cells ← t.numbered lastUsed (assemble t.columns entries)
  t.accept t.rows cells
  return cells

/-- The table with one more row. -/
def append (t : Table) (cells : Cells) : Table := { t with rows := t.rows ++ [cells] }

/-! ## Changed rows -/

/-- The cells after some assignments.  Columns that none of them names keep what they
    hold. -/
def assigned (columns : List StoredColumn) (entries : List Entry) (cells : Cells) : Cells :=
  (columns.zip cells).map fun p => (written? entries p.1).getD p.2

/-- The row number, if there is one, is a number. -/
def checkNumber (t : Table) (cells : Cells) : Except StoreFault Unit :=
  match t.rowNumber? with
  | none => .ok ()
  | some i =>
      match cellAt cells i with
      | .integer _ => .ok ()
      | _ => .error .keyMismatch

/-- Changes the selected rows one after the other; a change is checked against the
    rows before it as they have become and those after it as they were. -/
def updateRows (t : Table) (selected : Cells → Bool) (entries : List Entry) :
    List Cells → List Cells → Except StoreFault (List Cells)
  | done, [] => .ok done.reverse
  | done, cells :: rest =>
      if selected cells then do
        let changed := assigned t.columns entries cells
        t.checkNumber changed
        t.accept (done ++ rest) changed
        updateRows t selected entries (changed :: done) rest
      else updateRows t selected entries (cells :: done) rest

end Table

end Gridbase
