import Gridbase.Schema.Validity

/-! # Table definitions as text

    The statement that makes a designed table: one column to a line, every name
    in quotes. -/

namespace Gridbase

namespace ColumnDesign

/-- The mark of a generated column stands at the end of its definition, right behind
    the words for the key, which such a dialect demands of it. -/
def markTrails (d : Dialect) (c : ColumnDesign) : Bool := c.isAutoIncrementing && d.marksAfterKey

/-- The column may hold NULL. -/
def admitsNull (c : ColumnDesign) : Bool :=
  c.isNullable && !c.isPrimaryKey && !c.isAutoIncrementing

/-- The words of a column definition after name and type. -/
def constraintWords (d : Dialect) (c : ColumnDesign) : List String :=
  -- the mark stands before or behind the other words, never at both places
  (if c.isAutoIncrementing && !c.markTrails d then [d.generatedMark] else [])
    ++ [if c.admitsNull then "NULL" else "NOT NULL"]
    ++ (if c.isPrimaryKey || c.markTrails d then ["PRIMARY KEY"] else [])
    ++ (if c.markTrails d then [d.generatedMark] else [])

/-- The definition of a column. -/
def definition (d : Dialect) (c : ColumnDesign) : String :=
  Text.joinWith " " (d.quote c.name :: d.columnType c :: c.constraintWords d)

end ColumnDesign

namespace TableDesign

/-- The columns of the table in parentheses, as they stand after its name. -/
def columnListText (d : Dialect) (t : TableDesign) : String :=
  " (\n" ++ Text.joinWith ",\n" (t.columns.map fun c => "    " ++ c.definition d) ++ "\n)"

/-- The statement that makes the table. -/
def createText (d : Dialect) (t : TableDesign) : String :=
  "CREATE TABLE " ++ d.quote t.tableName ++ t.columnListText d ++ ";"

/-- The statement that makes the table, if the design is valid.  Nothing is written
    for a design that is not. -/
def compile (d : Dialect) (t : TableDesign) : Except Failure String := do
  t.validate d
  return t.createText d

end TableDesign

end Gridbase
