import Gridbase.Row
import Gridbase.Statement.Query

/-! # INSERT statements -/

namespace Gridbase

/-- One row for a table; without columns its values are for all of them. -/
structure Insert where
  table : Option String := none
  columns : List String := []
  values : List Value := []
deriving DecidableEq

namespace Insert

/-! ## Clauses -/

/-- Names the table. -/
def intoTable (s : Insert) (table : String) : Insert := { s with table := some table }

/-- Lists the columns, in place of an earlier list. -/
def only (s : Insert) (columns : List String) : Insert := { s with columns }

/-- Adds values at the end. -/
def append (s : Insert) (values : List Value) : Insert := { s with values := s.values ++ values }

/-- Adds the columns and the values of a row at the end. -/
def row (s : Insert) (r : Row) : Insert :=
  { s with
    columns := s.columns ++ r.entries.map Entry.name
    values := s.values ++ r.entries.map Entry.value }

/-! ## The statement -/

/-- The column list as written; nothing without columns. -/
def columnText (s : Insert) : String :=
  if s.columns.isEmpty then "" else " (" ++ Text.joinWith ", " s.columns ++ ")"

/-- The values with commas between them. -/
def valueFragments : List Value → List Fragment
  | [] => []
  | [v] => [.parameter v]
  | v :: w :: rest => .parameter v :: .text ", " :: valueFragments (w :: rest)

/-- The statement over a table.  Every value has a place of its own. -/
def fragments (s : Insert) (table : String) : List Fragment :=
  .text ("INSERT INTO " ++ table ++ s.columnText ++ " VALUES (")
    :: valueFragments s.values ++ [.text ");"]

/-- The query, if there is a table and a value for every column listed. -/
def build (d : Dialect) (s : Insert) : Except Incomplete Query := do
  let table ← givenTable s.table .missingTable
  -- without columns any number of values may be right: only the table knows
  if !s.columns.isEmpty && s.columns.length != s.values.length then
    throw (.columnValueMismatch s.columns.length s.values.length)
  if s.values.isEmpty then throw .noColumns
  return Query.ofFragments d (s.fragments table)

end Insert

end Gridbase
