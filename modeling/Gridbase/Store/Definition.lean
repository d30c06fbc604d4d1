import Gridbase.Statement
import Gridbase.Store.Table

/-! # Making tables

    The table that a CREATE TABLE statement makes, column by column, and the
    content of its defaults. -/

namespace Gridbase

/-- A column of a CREATE TABLE statement as the store reads it.  The default may be one
    that it cannot read. -/
structure ColumnDeclaration where
  name : String
  declaredType : String
  notNull : Bool
  primaryKey : Bool
  generated : Bool
  preset : Except StoreFault Stored

namespace ColumnDeclaration

/-- The content of a numeric literal: an integer if 64 bits hold it. -/
def numericPreset (text : String) : Stored := (NumberText.read? text).getD (.text text)

/-- The content of a default.  A word that is no number is read as text, but not
    after a minus sign. -/
def presetOf : Value → Except StoreFault Stored
  | .null => .ok .null
  | .bool b => .ok (.integer (if b then 1 else 0))
  | .int n => .ok (.integer n)
  | .float x =>
      -- of the texts that are no numbers, only that of minus infinity has a sign
      if x.isFinite || !x.negative || x.isNaN then .ok (numericPreset x.plainText)
      else .error (.unexpected "inf")
  | .decimal d => .ok (numericPreset d.text)
  | .text s => .ok (.text s)
  | .moment m => .ok (.text m.text)
  | .blob bytes => .ok (.blob bytes)

/-- The declaration that a column clause makes.  The mark of a generated column is
    written behind the key only, so that it means nothing for other columns. -/
def ofClause (c : ColumnClause) : ColumnDeclaration where
  name := c.name
  declaredType := Dialect.sqlite.storageType c.storage
  notNull := !c.nullable
  primaryKey := c.primaryKey
  generated := c.primaryKey && c.autoIncrement
  preset :=
    match c.defaultValue with
    | some v => presetOf v
    | none => .ok .null

/-- The declaration that a designed column makes.  Designs have no defaults. -/
def ofDesign (c : ColumnDesign) : ColumnDeclaration where
  name := c.name
  declaredType := Dialect.sqlite.columnType c
  notNull := !c.admitsNull
  primaryKey := TableDesign.isKeyColumn .sqlite c
  generated := c.markTrails .sqlite
  preset := .ok .null

/-- The column that a declaration makes after other columns of a table.  The default
    is looked at last: a fault in it shows only in a column that is otherwise right. -/
def column (table : String) (earlier : List StoredColumn) (c : ColumnDeclaration) :
    Except StoreFault StoredColumn := do
  if earlier.any fun e => Text.sameName e.name c.name then throw (.duplicateColumn c.name)
  if c.primaryKey && earlier.any StoredColumn.primaryKey then throw (.severalKeys table)
  if c.generated && !Text.sameName c.declaredType "INTEGER" then throw .generatedNotInteger
  return {
    name := c.name
    declaredType := c.declaredType
    notNull := c.notNull
    primaryKey := c.primaryKey
    preset := ← c.preset }

/-- The columns that declarations make, in order.  The first that cannot be made is
    reported. -/
def columns (table : String) :
    List StoredColumn → List ColumnDeclaration → Except StoreFault (List StoredColumn)
  | done, [] => .ok done
  | done, c :: rest => do columns table (done ++ [← column table done c]) rest

end ColumnDeclaration

end Gridbase
