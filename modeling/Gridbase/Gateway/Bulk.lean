import Gridbase.Cancellation
import Gridbase.Dataset
import Gridbase.Gateway

/-! # Bulk writing

    A dataset written to its table row by row over one connection.  A row is a
    statement of its own: the rows written before a failure, or before
    cancellation is observed, stay written. -/

namespace Gridbase.Gateway

open Session

/-! ## Inserting -/

/-- The names of the columns whose values the database makes, as introspection reports
    them. -/
def generatedNames (columns : List ColumnInfo) : List String :=
  (columns.filter ColumnInfo.isAutoIncrementing).map ColumnInfo.name

/-- The columns of a dataset that are written: all but the generated ones, each
    under a name that may stand in a statement.  A generated column is left out before
    its name is checked. -/
def writtenColumns (generated : List String) : List String → Except Failure (List String)
  | [] => .ok []
  | name :: rest =>
      if generated.any (Text.sameName name) then writtenColumns generated rest
      else do
        checkColumn name
        return name :: (← writtenColumns generated rest)

/-- The columns that are written, at least one: those of the dataset that are not
    generated. -/
def insertableColumns (generated : List String) (names : List String) :
    Except Failure (List String) := do
  let columns ← writtenColumns generated names
  checkSome "No insertable columns were provided." columns
  return columns

/-- The insertion of a row into the given columns; NULL where the row has no
    value. -/
def rowInsert (table : String) (columns : List String) (row : Row) : Insert :=
  { table := some table, columns, values := columns.map fun c => (row.get? c).getD .null }

/-- Inserts rows one by one, the first of them at the given position; the count is
    that of the rows written. -/
def insertRows (w : Watch) (table : String) (columns : List String) :
    Nat → List Row → Action Nat
  | _, [] => return 0
  | i, row :: rest => do
      require (checkpoint (w.beforeRow i))
      let written ← send (.insert (rowInsert table columns row))
      return written + (← insertRows w table columns (i + 1) rest)

/-- Inserts the rows of a dataset over an open connection.  Rows that were written
    before a failure stay. -/
def insertAll (w : Watch) (d : Dataset) : Action Nat := do
  let generated := generatedNames (← columnsOf d.table)
  let columns ← require (insertableColumns generated d.names)
  insertRows w d.table columns 0 d.rows

/-- Inserts the rows of a dataset. -/
def insertDataset (g : Gateway) (w : Watch) (d : Dataset) : Action Nat := do
  -- the columns can be checked only once the table is known, over the connection
  require (checkTable d.table)
  require (checkpoint w.atStart)
  require g.checkAddress
  insertAll w d

/-! ## Putting rows under their keys -/

/-- How many rows were inserted and how many were updated.  A run that fails gives no
    tally. -/
structure Tally where
  inserted : Nat := 0
  updated : Nat := 0
deriving DecidableEq

/-- Counts one more outcome. -/
def Tally.count (t : Tally) : Upserted → Tally
  | .inserted => { t with inserted := t.inserted + 1 }
  | .updated => { t with updated := t.updated + 1 }

/-- Puts rows under their keys one by one, the first of them at the given
    position, and counts on. -/
def putRows (w : Watch) (table key : String) : Nat → List Row → Tally → Action Tally
  | _, [], t => return t
  | i, row :: rest, t => do
      require (checkpoint (w.beforeRow i))
      putRows w table key (i + 1) rest (t.count (← put table row key))

/-- The dataset has the key as a column, in any spelling. -/
def checkKey (d : Dataset) (key : String) : Except Failure Unit :=
  if d.hasColumn key then .ok ()
  else .error (.invalid ("The data must contain the primary key column '" ++ key ++ "'."))

/-- Puts the rows of a dataset under their keys.  All names are checked before the
    connection is opened, unlike in an insertion. -/
def upsertDataset (g : Gateway) (w : Watch) (d : Dataset) (key : String) : Action Tally := do
  require (checkTable d.table)
  require (checkColumn key)
  require (checkKey d key)
  require (checkColumns d.names)
  require (checkpoint w.atStart)
  require g.checkAddress
  putRows w d.table key 0 d.rows {}

end Gridbase.Gateway
