import Gridbase.Row

/-! # Datasets

    Rows held column by column.  The rows of a dataset are those that every
    column has a value for; columns of unequal length are cut to the shortest. -/

namespace Gridbase

/-- A named sequence of values. -/
structure DataColumn where
  name : String
  values : List Value
deriving DecidableEq

/-- Columns of values destined for a table.  Nothing asks that they are of one length.
    -/
structure Dataset where
  table : String
  columns : List DataColumn := []
deriving DecidableEq

namespace Dataset

/-- The dataset without columns. -/
def empty (table : String) : Dataset := { table }

/-- Changes the values of the first column with a name. -/
def modifyColumn (name : String) (f : List Value → List Value) :
    List DataColumn → List DataColumn
  | [] => []
  | c :: rest =>
      if Text.sameName c.name name then { c with values := f c.values } :: rest
      else c :: modifyColumn name f rest

/-- The values of a column, by its name in any spelling. -/
def column? (d : Dataset) (name : String) : Option (List Value) :=
  (d.columns.find? fun c => Text.sameName c.name name).map DataColumn.values

/-- The dataset has a column of that name. -/
def hasColumn (d : Dataset) (name : String) : Bool :=
  d.columns.any fun c => Text.sameName c.name name

/-- Adds a column, or replaces the values of the column of that name.  Its name stays as
    it was spelled first. -/
def pushColumn (d : Dataset) (name : String) (values : List Value) : Dataset :=
  if d.hasColumn name then { d with columns := modifyColumn name (fun _ => values) d.columns }
  else { d with columns := d.columns ++ [⟨name, values⟩] }

/-- Adds a value at the end of a column; nothing happens without the column.  Columns
    may differ in length in between: rows are what all of them have. -/
def pushValue (d : Dataset) (name : String) (value : Value) : Dataset :=
  { d with columns := modifyColumn name (· ++ [value]) d.columns }

/-- The names of the columns in order. -/
def names (d : Dataset) : List String := d.columns.map DataColumn.name

/-- The number of columns. -/
def columnCount (d : Dataset) : Nat := d.columns.length

/-- The length of the shortest of some columns. -/
def shortest : List DataColumn → Nat
  | [] => 0
  -- the last column alone: a minimum with the case above would always be zero
  | [c] => c.values.length
  | c :: rest => min c.values.length (shortest rest)

/-- The number of rows: a row is there if every column has a value for it. -/
def rowCount (d : Dataset) : Nat := shortest d.columns

/-- The dataset has no row. -/
def isEmpty (d : Dataset) : Bool := d.rowCount == 0

/-- The columns whose length differs from that of the first one.  The first column is
    the measure, also where it is the odd one out. -/
def inconsistent (d : Dataset) : List String :=
  match d.columns with
  | [] => []
  | first :: _ =>
      (d.columns.filter fun c => c.values.length != first.values.length).map DataColumn.name

/-- Every column cut to the number of rows, if their lengths differ. -/
def truncated (d : Dataset) : Dataset :=
  if d.inconsistent.isEmpty then d
  else { d with columns := d.columns.map fun c => { c with values := c.values.take d.rowCount } }

/-- The message about columns that were cut; none if their lengths agree. -/
def truncationMessage? (d : Dataset) : Option String :=
  if d.inconsistent.isEmpty then none
  else some ("Inconsistent row sizes for columns: " ++ Text.joinWith ", " d.inconsistent
    ++ ". Truncating to shortest row count.")

/-- The entries of a row, one for each column that is long enough. -/
def rowEntries (i : Nat) (columns : List DataColumn) : List (String × Value) :=
  columns.filterMap fun c => c.values[i]?.map fun v => (c.name, v)

/-- The row at a position.  It is built entry by entry, so that two columns of one name
    give one entry with the later value. -/
def row? (d : Dataset) (i : Nat) : Option Row :=
  if i < d.rowCount then some (Row.ofList (rowEntries i d.columns)) else none

/-- The rows in order. -/
def rows (d : Dataset) : List Row := (List.range d.rowCount).filterMap d.row?

end Dataset

end Gridbase
