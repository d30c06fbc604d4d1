import Gridbase.Gateway.Catalog
import Gridbase.Gateway.Session

/-! # The gateway

    Reading and writing tables whose shape is known only when the program runs.
    Every name is checked before a statement with it is made, and values travel
    as parameters only.  Each operation opens a connection of its own, after the
    checks on its arguments. -/

namespace Gridbase

/-- A condition of an operation; any one of several selects a row.  This differs from a
    condition, which joins those before it with a word of its own. -/
structure Filter where
  column : String
  operator : Operator := .eq
  value : Value
deriving DecidableEq

/-- A filter with its operator given as text. -/
def Filter.parse (column operator : String) (value : Value) : Except Failure Filter := do
  return ⟨column, ← Operator.parse operator, value⟩

/-- The conditions that select what any of the filters selects.  Without filters there
    is none, and so nothing to restrict a statement. -/
def Filter.conditions : List Filter → List Condition
  | [] => []
  -- the connector of the first one is never written
  | f :: rest =>
      ⟨.and, f.column, f.operator, f.value⟩
        :: rest.map fun g => ⟨.or, g.column, g.operator, g.value⟩

/-- The condition that a column has a value. -/
def Condition.is (column : String) (value : Value) : Condition := ⟨.and, column, .eq, value⟩

/-- What became of a row that was put under its key: nothing had the key, or something
    had. -/
inductive Upserted
  | inserted
  | updated
deriving DecidableEq

/-- The source of connections: an address, or the failure to have one.  The address is
    looked at when a connection is opened, and not before. -/
structure Gateway where
  address : Except Failure String

namespace Gateway

open Session

/-! ## Checks -/

/-- A table name that may stand in a statement.  That there is such a table is left to
    the database. -/
def checkTable (name : String) : Except Failure Unit :=
  if Dialect.sqlite.isValidName name then .ok ()
  else .error (.invalid ("Table name '" ++ name ++ "' is not a valid SQL identifier."))

/-- A column name that may stand in a statement.  That there is such a column is left to
    the database. -/
def checkColumn (name : String) : Except Failure Unit :=
  if Dialect.sqlite.isValidName name then .ok ()
  else .error (.invalid ("Column name '" ++ name ++ "' is not a valid SQL identifier."))

/-- Column names that may stand in a statement; the first one that may not is reported.
    -/
def checkColumns : List String → Except Failure Unit
  | [] => .ok ()
  | name :: rest => do
      checkColumn name
      checkColumns rest

/-- A row with at least one entry whose names may stand in a statement.  Its values are
    not looked at. -/
def checkRow (row : Row) : Except Failure Unit :=
  if row.isEmpty then .error (.invalid "Row cannot be empty.") else checkColumns row.names

/-- Filters whose names may stand in a statement. -/
def checkFilters (filters : List Filter) : Except Failure Unit :=
  checkColumns (filters.map Filter.column)

/-- At least one item. -/
def checkSome {α : Type} (message : String) (items : List α) : Except Failure Unit :=
  if items.isEmpty then .error (.invalid message) else .ok ()

/-- The source gives an address that is not blank. -/
def checkAddress (g : Gateway) : Except Failure Unit :=
  match g.address with
  | .error f => .error f
  | .ok s =>
      if Text.allBlank s then .error (.invalid "Connection string cannot be empty.") else .ok ()

/-! ## Connections -/

/-- Opens a connection and sends a statement, which is completed before. -/
def run (g : Gateway) (s : Statement) : Action Nat := do
  -- an incomplete statement fails before anything is opened
  let q ← prepared (s.build .sqlite)
  require g.checkAddress
  execute s q

/-- Opens a connection and sends a selection, which is completed before. -/
def query (g : Gateway) (s : Select) : Action (List Row) := do
  let q ← prepared (s.build .sqlite)
  require g.checkAddress
  fetch s q

/-! ## Tables -/

/-- The column of a new table; the key counts upwards if it is an integer. -/
def keyedClause (key name : String) (storage : StorageClass) : ColumnClause :=
  let isKey := Text.sameName name key
  { name, storage, primaryKey := isKey, autoIncrement := isKey && storage = .integer }

/-- The key of a new table: the column asked for, or else the first one. -/
def chooseKey (columns : List (String × StorageClass)) (key : Option String) :
    Except Failure String :=
  match key with
  | some key =>
      -- any spelling of a column will do, but not a name that is no column
      if columns.any fun c => Text.sameName c.1 key then .ok key
      else
        .error (.invalid ("Primary key column '" ++ key ++ "' is not one of the table columns."))
  | none => .ok ((columns.head?.map Prod.fst).getD "")

/-- What a new table needs: valid names, columns, and one of them as the key.  Doubled
    names are left to the database. -/
def newTable (table : String) (columns : List (String × StorageClass)) (key : Option String) :
    Except Failure CreateTable := do
  checkTable table
  checkSome "Columns cannot be empty." columns
  checkColumns (columns.map Prod.fst)
  let key ← chooseKey columns key
  return { table := some table, columns := columns.map fun c => keyedClause key c.1 c.2 }

/-- Makes a table of the given columns, one of which is its key. -/
def createTable (g : Gateway) (table : String) (columns : List (String × StorageClass))
    (key : Option String) : Action Unit := do
  let create ← require (newTable table columns key)
  discard (g.run (.createTable create))

/-- Makes a table of fully described columns, unless it exists.  A table that exists
    stays as it is, even if its columns are others. -/
def createTableWith (g : Gateway) (table : String) (columns : List ColumnClause) :
    Action Unit := do
  require (checkTable table)
  require (checkSome "Columns cannot be empty." columns)
  require (checkColumns (columns.map ColumnClause.name))
  discard (g.run (.createTable { table := some table, ifNotExists := true, columns }))

/-- Makes the table of a design, which is checked as a whole first. -/
def createDesigned (g : Gateway) (t : TableDesign) : Action Unit := do
  require (t.validate .sqlite)
  discard (g.run (.createDesigned t))

/-- Gives a table another name. -/
def renameTable (g : Gateway) (old new : String) : Action Unit := do
  require (checkTable old)
  require (checkTable new)
  discard (g.run (.renameTable old new))

/-- Removes a table, if there is one.  It is no failure if there is none. -/
def dropTable (g : Gateway) (table : String) : Action Unit := do
  require (checkTable table)
  discard (g.run (.dropTable table))

/-! ## Reading -/

/-- All rows of a table. -/
def getAll (g : Gateway) (table : String) : Action (List Row) := do
  require (checkTable table)
  g.query { table := some table }

/-- The first row whose key has a value, if there is one.  That there is only one is
    left to the table. -/
def getById (g : Gateway) (table key : String) (id : Value) : Action (Option Row) := do
  require (checkTable table)
  require (checkColumn key)
  return (← g.query { table := some table, conditions := [Condition.is key id] }).head?

/-- The given columns, or all, of the rows that any of the filters selects, or of
    all rows. -/
def get (g : Gateway) (table : String) (columns : List String) (filters : List Filter)
    (order : List OrderTerm) : Action (List Row) := do
  require (checkTable table)
  require (checkColumns columns)
  require (checkFilters filters)
  require (checkColumns (order.map OrderTerm.column))
  g.query { table := some table, columns, conditions := Filter.conditions filters, order }

/-! ## Writing -/

/-- Adds a row.  Columns that it does not name take their defaults. -/
def add (g : Gateway) (table : String) (row : Row) : Action Nat := do
  require (checkTable table)
  require (checkRow row)
  g.run (.insert (({ table := some table } : Insert).row row))

/-- Writes the entries of a row to the rows whose key has a value.  There may be none,
    and then the count is zero. -/
def updateById (g : Gateway) (table : String) (row : Row) (key : String) (id : Value) :
    Action Nat := do
  require (checkTable table)
  require (checkRow row)
  require (checkColumn key)
  g.run (.update
    { table := some table, assignments := row.entries, conditions := [Condition.is key id] })

/-- Writes the entries of a row to the rows that any of the filters selects.  Without
    a filter all rows would be changed, which is refused. -/
def updateWhere (g : Gateway) (table : String) (row : Row) (filters : List Filter) :
    Action Nat := do
  require (checkTable table)
  require (checkRow row)
  require (checkSome "Conditions cannot be empty." filters)
  require (checkFilters filters)
  g.run (.update
    { table := some table, assignments := row.entries, conditions := Filter.conditions filters })

/-- Removes the rows whose key has a value. -/
def deleteById (g : Gateway) (table key : String) (id : Value) : Action Nat := do
  require (checkTable table)
  require (checkColumn key)
  g.run (.delete { table := some table, conditions := [Condition.is key id] })

/-- Removes the rows that any of the filters selects.  Without a filter all rows would
    go, which is refused. -/
def deleteWhere (g : Gateway) (table : String) (filters : List Filter) : Action Nat := do
  require (checkTable table)
  require (checkSome "Conditions cannot be empty." filters)
  require (checkFilters filters)
  g.run (.delete { table := some table, conditions := Filter.conditions filters })

/-! ## Putting rows under their keys -/

/-- Puts a row under its key over an open connection: the row with the key is
    updated, or the row is added. -/
def put (table : String) (row : Row) (key : String) : Action Upserted := do
  match row.get? key with
  | none =>
      throw (.invalid ("The row must contain the primary key column '" ++ key ++ "'."))
  | some id =>
      -- of the rows found only whether there is one counts
      let found ← ask
        { table := some table, columns := [key], conditions := [Condition.is key id] }
      if found.isEmpty then
        discard (send (.insert (({ table := some table } : Insert).row row)))
        return .inserted
      else
        discard (send (.update
          { table := some table, assignments := row.entries, conditions := [Condition.is key id] }))
        return .updated

/-- Puts a row under its key.  The lookup and the change that follows it are two
    statements. -/
def upsert (g : Gateway) (table : String) (row : Row) (key : String) : Action Upserted := do
  require (checkTable table)
  require (checkRow row)
  require (checkColumn key)
  require g.checkAddress
  put table row key

/-! ## Columns -/

/-- The columns of a table over an open connection. -/
def columnsOf (table : String) : Action (List ColumnInfo) := do
  require (Catalog.liveColumns (← MonadState.get).database table)

/-- The columns of a table, as its catalog has them. -/
def columnInfo (g : Gateway) (table : String) : Action (List ColumnInfo) := do
  require (checkTable table)
  require g.checkAddress
  columnsOf table

/-- The names of the columns with their types.  A declared type that is unknown is taken
    for text. -/
def columnTypes (g : Gateway) (table : String) : Action (List (String × DataType)) := do
  return (← g.columnInfo table).map fun c => (c.name, DataType.ofDeclared c.dataType)

end Gateway

end Gridbase
