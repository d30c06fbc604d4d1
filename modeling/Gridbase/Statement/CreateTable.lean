import Gridbase.Statement.Query

/-! # CREATE TABLE statements

    Columns with a storage class and an optional default, whose literal is the
    only value that is written into a statement. -/

namespace Gridbase

/-- A column of the statement.  Only a key is generated: the flag has no effect on other
    columns. -/
structure ColumnClause where
  name : String
  storage : StorageClass
  nullable : Bool := true
  primaryKey : Bool := false
  autoIncrement : Bool := false
  defaultValue : Option Value := none
deriving DecidableEq

namespace ColumnClause

/-- The words for a key. -/
def keyWords (d : Dialect) (c : ColumnClause) : List String :=
  if c.primaryKey then "PRIMARY KEY" :: (if c.autoIncrement then [d.generatedMark] else [])
  else []

/-- The words for a default.  This is the only value that is written out and not bound.
    -/
def defaultWords (d : Dialect) (c : ColumnClause) : List String :=
  match c.defaultValue with
  | some v => ["DEFAULT " ++ d.literal v]
  | none => []

/-- The clause as written.  A default is the last of its words: its literal may hold
    anything, also blanks and commas. -/
def text (d : Dialect) (c : ColumnClause) : String :=
  Text.joinWith " " (c.name :: d.storageType c.storage ::
    (c.keyWords d ++ (if c.nullable then [] else ["NOT NULL"]) ++ c.defaultWords d))

end ColumnClause

/-- A table that is to be made, always or only if it does not exist. -/
structure CreateTable where
  table : Option String := none
  ifNotExists : Bool := false
  columns : List ColumnClause := []
deriving DecidableEq

namespace CreateTable

/-- Names the table. -/
def named (s : CreateTable) (table : String) : CreateTable := { s with table := some table }

/-- Leaves an existing table alone. -/
def unlessExists (s : CreateTable) : CreateTable := { s with ifNotExists := true }

/-- Adds a column at the end. -/
def column (s : CreateTable) (c : ColumnClause) : CreateTable :=
  { s with columns := s.columns ++ [c] }

/-- The columns in parentheses, as they stand after the name. -/
def columnListText (d : Dialect) (s : CreateTable) : String :=
  " (" ++ Text.joinWith ", " (s.columns.map fun c => c.text d) ++ ")"

/-- The statement over a table. -/
def text (d : Dialect) (s : CreateTable) (table : String) : String :=
  "CREATE TABLE " ++ (if s.ifNotExists then "IF NOT EXISTS " else "")
    ++ table ++ s.columnListText d ++ ";"

/-- The query, if there is a table and every column has a name.  It has no parameters.
    -/
def build (d : Dialect) (s : CreateTable) : Except Incomplete Query := do
  let table ← givenTable s.table .missingTable
  if s.columns.isEmpty then throw .noColumns
  if s.columns.any fun c => Text.allBlank c.name then throw .unnamedColumn
  return Query.plain (s.text d table)

end CreateTable

end Gridbase
