import Gridbase.Schema.Ddl
import Gridbase.Statement.CreateTable
import Gridbase.Statement.Delete
import Gridbase.Statement.Insert
import Gridbase.Statement.Select
import Gridbase.Statement.Update

/-! # Statements

    The statements that change a database, and their queries. -/

namespace Gridbase

/-- A statement that changes a database.  Selections are kept apart, as they give rows.
    -/
inductive Statement
  | insert (s : Insert)
  | update (s : Update)
  | delete (s : Delete)
  | createTable (s : CreateTable)
  | createDesigned (t : TableDesign)
  | renameTable (old new : String)
  | dropTable (name : String)

/-- The query of a statement.  A design is checked before its statement is made, and
    so are the names of the last two: none of the three can be incomplete. -/
def Statement.build (d : Dialect) : Statement → Except Incomplete Query
  | .insert s => s.build d
  | .update s => s.build d
  | .delete s => s.build d
  | .createTable s => s.build d
  | .createDesigned t => .ok (Query.plain (t.createText d))
  | .renameTable old new =>
      .ok (Query.plain ("ALTER TABLE " ++ old ++ " RENAME TO " ++ new ++ ";"))
  | .dropTable name => .ok (Query.plain ("DROP TABLE IF EXISTS " ++ name ++ ";"))

end Gridbase
