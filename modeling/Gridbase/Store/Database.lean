import Gridbase.Store.Definition
import Gridbase.Store.Search
import Gridbase.Store.Words

/-! # The database

    Tables in the order they were made, and a table of the greatest number used in
    each table with a generated key.  A statement that fails changes nothing. -/

namespace Gridbase

/-- The tables of a database, and the rows of the table of greatest numbers, which
    exists once a table with a generated key has been made. -/
structure Database where
  tables : List Table := []
  sequence : Option (List Cells) := none
deriving DecidableEq

namespace Database

/-- The database without tables. -/
def empty : Database := {}

instance : Inhabited Database := ⟨empty⟩

/-! ## Names -/

/-- The names that belong to the database itself. -/
def isInternal (name : String) : Bool :=
  Text.startsWith "sqlite_".toList (Text.lower name.toList)

/-! ## Tables -/

/-- The name of the table of greatest numbers. -/
def sequenceName : String := "sqlite_sequence"

/-- The table of greatest numbers.  It can be read and written like any other, but
    not made, renamed or removed. -/
def sequenceTable (rows : List Cells) : Table where
  name := sequenceName
  writtenName := sequenceName
  definition := "(name,seq)"
  generated := false
  columns := [⟨"name", "", false, false, .null⟩, ⟨"seq", "", false, false, .null⟩]
  rows := rows

/-- A table that was made by a statement. -/
def table? (db : Database) (name : String) : Option Table :=
  db.tables.find? fun t => Text.sameName t.name name

/-- A table that a statement can read and change: one that was made, or the table of
    greatest numbers. -/
def reachable? (db : Database) (name : String) : Option Table :=
  match db.table? name with
  | some t => some t
  | none =>
      if Text.sameName sequenceName name then db.sequence.map sequenceTable else none

/-- The table that a statement names, in any spelling. -/
def target (db : Database) (name : String) : Except StoreFault Table :=
  match db.reachable? name with
  | some t => .ok t
  | none => .error (.noTable name)

/-- Changes the first table of a name. -/
def modifyTable (name : String) (f : Table → Table) : List Table → List Table
  | [] => []
  | t :: rest =>
      if Text.sameName t.name name then f t :: rest else t :: modifyTable name f rest

/-- The database with other rows in a table. -/
def withRows (db : Database) (name : String) (rows : List Cells) : Database :=
  match db.table? name with
  | some _ => { db with tables := modifyTable name (fun t => { t with rows }) db.tables }
  | none => { db with sequence := some rows }

/-! ## Greatest numbers -/

/-- The row of a table of greatest numbers is that of a name. -/
def isNumberOf (name : String) (cells : Cells) : Bool := Table.cellAt cells 0 == .text name

/-- The greatest number used in a table, zero before the first one.  The first row of
    the name counts, should a statement have added others. -/
def lastUsed (db : Database) (name : String) : Int :=
  (((db.sequence.getD []).find? (isNumberOf name)).map fun cells =>
    Table.integerAt cells 1).getD 0

/-- A greatest number as a row. -/
def numberRow (name : String) (n : Int) : Cells := [.text name, .integer (Int64.ofInt n)]

/-- Raises the greatest number of a table, which never goes down again. -/
def raise (name : String) (n : Int) : List Cells → List Cells
  -- a new record starts at zero, so that a negative number leaves no trace in it
  | [] => [numberRow name (max 0 n)]
  | cells :: rest =>
      if isNumberOf name cells then numberRow name (max (Table.integerAt cells 1) n) :: rest
      else cells :: raise name n rest

/-- Records the number of a new row in a generated table.  In other tables the numbers
    of removed rows may come again. -/
def recordNumber (t : Table) (cells : Cells) (db : Database) : Database :=
  match t.rowNumber? with
  | some i =>
      if t.generated then
        { db with sequence := db.sequence.map (raise t.name (Table.integerAt cells i)) }
      else db
  | none => db

/-! ## Reading -/

/-- The rows that a selection gives.  Words come first, then the table, and then
    the columns from left to right; the first fault is the one that is reported. -/
def select (db : Database) (s : Select) : Except StoreFault (List Row) := do
  Word.check s.words
  let t ← db.target (s.table.getD "")
  let positions ← Search.columns t s.columns
  let terms ← Search.terms t s.conditions
  let keys ← Search.sortKeys t s.order
  let shown := if s.columns.isEmpty then List.range t.columns.length else positions
  return (Search.sorted keys ((Search.visited t keys).filter (Search.selects terms))).map
    (Search.project t shown)

/-! ## Writing -/

/-- The entries that an insertion writes.  Without columns the values are for those of
    the table, in order. -/
def insertEntries (t : Table) (s : Insert) : List Entry :=
  let names := if s.columns.isEmpty then t.columns.map StoredColumn.name else s.columns
  (names.zip s.values).map fun p => ⟨p.1, p.2⟩

/-- The first of some columns that a table does not have, by its declared columns;
    other names for the row number are not read here. -/
def unknownColumn? (t : Table) (names : List String) : Option String :=
  names.find? fun n => (t.position? n).isNone

/-- Adds a row.  It is numbered and checked before the database is changed. -/
def insert (db : Database) (s : Insert) : Except StoreFault (Nat × Database) := do
  let name := s.table.getD ""
  Word.check s.words
  let t ← db.target name
  match unknownColumn? t s.columns with
  | some column => .error (.noInsertColumn name column)
  | none =>
      let cells ← t.newRow (db.lastUsed t.name) (insertEntries t s)
      return (1, recordNumber t cells (db.withRows name (t.append cells).rows))

/-- Changes the selected rows; the count is that of the rows selected, also of those
    that have the new values already. -/
def update (db : Database) (s : Update) : Except StoreFault (Nat × Database) := do
  let name := s.table.getD ""
  Word.check s.words
  let t ← db.target name
  match unknownColumn? t (s.assignments.map Entry.name) with
  | some column => .error (.noColumn column)
  | none =>
      let terms ← Search.terms t s.conditions
      -- one fault in any row undoes the whole statement
      let rows ← t.updateRows (Search.selects terms) s.assignments [] t.rows
      return (t.rows.countP (Search.selects terms), db.withRows name rows)

/-- Removes the selected rows, and counts them. -/
def delete (db : Database) (s : Delete) : Except StoreFault (Nat × Database) := do
  let name := s.table.getD ""
  Word.check s.words
  let t ← db.target name
  let terms ← Search.terms t s.conditions
  return (t.rows.countP (Search.selects terms),
    db.withRows name (t.rows.filter fun cells => !Search.selects terms cells))

/-! ## Tables as a whole -/

/-- The database with one more table. -/
def addTable (db : Database) (t : Table) : Database where
  tables := db.tables ++ [t]
  sequence := if t.generated then some (db.sequence.getD []) else db.sequence

/-- Makes a table, unless the name is taken and that is no fault.  The statement that
    is stored is read back at the end. -/
def create (db : Database) (name written definition : String) (unlessExists : Bool)
    (declarations : List ColumnDeclaration) : Except StoreFault Database := do
  if isInternal name then throw (.reservedName name)
  -- an existing table is left alone before the columns of the new one are looked at
  if (db.table? name).isSome then
    if unlessExists then return db else throw (.tableExists written)
  let columns ← ColumnDeclaration.columns name [] declarations
  -- the condition of the statement is not stored, so that the name may be read as one
  if Word.isCondition written then throw (.malformedTable written)
  return db.addTable
    { name, writtenName := written, definition, columns
      generated := declarations.any ColumnDeclaration.generated }

/-- Makes the table of a CREATE TABLE statement. -/
def createTable (db : Database) (s : CreateTable) : Except StoreFault Database := do
  let name := s.table.getD ""
  Word.check s.words
  db.create name name (s.columnListText .sqlite) s.ifNotExists
    (s.columns.map ColumnDeclaration.ofClause)

/-- Makes the table of a design. -/
def createDesigned (db : Database) (t : TableDesign) : Except StoreFault Database :=
  db.create t.tableName (Dialect.sqlite.quote t.tableName) (t.columnListText .sqlite) false
    (t.columns.map ColumnDeclaration.ofDesign)

/-- Gives a table another name.  Its stored statement then has the name in quotes, and
    its greatest number goes with it. -/
def rename (db : Database) (old new : String) : Except StoreFault Database := do
  Word.check (Statement.renameTable old new).words
  match db.reachable? old with
  | none => .error (.noTable old)
  | some t =>
      -- a table cannot be renamed to itself either, not even in another case
      if (db.reachable? new).isSome then throw (.nameTaken new)
      if isInternal t.name then throw (.cannotAlter t.name)
      if isInternal new then throw (.reservedName new)
      return {
        tables := modifyTable old
          (fun t => { t with name := new, writtenName := Dialect.sqlite.quote new }) db.tables
        sequence := db.sequence.map fun rows =>
          rows.map fun cells => if isNumberOf t.name cells then cells.set 0 (.text new) else cells }

/-- Removes a table, if there is one, along with its greatest number.  Those of the
    database itself cannot be dropped. -/
def drop (db : Database) (name : String) : Except StoreFault Database := do
  Word.check (Statement.dropTable name).words
  match db.reachable? name with
  | none => return db
  | some t =>
      if isInternal t.name then throw (.cannotDrop t.name)
      return {
        tables := db.tables.filter fun u => !Text.sameName u.name name
        sequence := db.sequence.map fun rows => rows.filter fun cells => !isNumberOf t.name cells }

/-- Executes a statement; the count is that of the rows it touched. -/
def execute (db : Database) : Statement → Except StoreFault (Nat × Database)
  | .insert s => db.insert s
  | .update s => db.update s
  | .delete s => db.delete s
  | .createTable s => do return (0, ← db.createTable s)
  | .createDesigned t => do return (0, ← db.createDesigned t)
  | .renameTable old new => do return (0, ← db.rename old new)
  | .dropTable name => do return (0, ← db.drop name)

end Database

end Gridbase
