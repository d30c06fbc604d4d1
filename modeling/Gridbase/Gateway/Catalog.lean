import Gridbase.Schema.Reading
import Gridbase.Store.Database

/-! # Columns of existing tables

    Two ways to learn the columns of a table: from the catalog of the database,
    and from the statement that made the table.  The catalog goes first. -/

namespace Gridbase.Catalog

/-- The ways to learn the columns of a table: from the catalog, or from the text that
    the table was made with. -/
inductive Strategy
  | catalog
  | schemaText
deriving DecidableEq

/-- The name of a strategy. -/
def Strategy.name : Strategy → String
  | .catalog => "catalog"
  | .schemaText => "schema-text"

/-- The table does not exist. -/
def notFound (table : String) : Failure :=
  .notFound ("Table '" ++ table ++ "' does not exist.")

/-- The statement mentions a generated key, anywhere in its text: in a name or a
    default as well as behind a key. -/
def mentionsGenerated (sql : String) : Bool :=
  Text.occursIn "AUTOINCREMENT".toList (Text.upper sql.toList)

/-- The information that the catalog has about a column. -/
def describe (generated : Bool) (c : StoredColumn) : ColumnInfo :=
  -- the catalog knows the flags, and of the type only the text as declared
  { Schema.columnOfDeclared c.name.toList c.declaredType.toList with
    isPrimaryKey := c.primaryKey
    isNullable := !c.notNull && !c.primaryKey
    isAutoIncrementing := c.primaryKey && generated }

/-- The columns of a table, learnt in one way.  Both ways need the table to be there. -/
def columns (db : Database) (table : String) : Strategy → Except Failure (List ColumnInfo)
  | .catalog =>
      match db.reachable? table with
      | some t => .ok (t.columns.map (describe (mentionsGenerated t.sql)))
      | none => .error (notFound table)
  | .schemaText =>
      match db.reachable? table with
      | some t => .ok (Schema.readColumns t.sql)
      | none => .error (notFound table)

/-- The columns of a table: from the catalog, or from the text of the table if the
    catalog cannot tell. -/
def liveColumns (db : Database) (table : String) : Except Failure (List ColumnInfo) :=
  match columns db table .catalog with
  | .ok list => .ok list
  | .error f => if f.kind = .notFound then .error f else columns db table .schemaText

end Gridbase.Catalog
