import Gridbase.Identifier
import Gridbase.Schema.Column
import Gridbase.Value

/-! # Dialects

    What differs between the backends: quoting, type names, generated columns,
    placeholders and reserved words. -/

namespace Gridbase

/-- The supported backends. -/
inductive Dialect
  | sqlite
  | sqlServer
  | postgres
deriving DecidableEq

namespace Dialect

/-- All dialects. -/
def all : List Dialect := [.sqlite, .sqlServer, .postgres]

/-- The name of a dialect. -/
def name : Dialect → String
  | .sqlite => "sqlite"
  | .sqlServer => "sqlserver"
  | .postgres => "postgres"

/-- The dialect with a name. -/
def ofName? (s : String) : Option Dialect := all.find? fun d => d.name == s

/-- A name in quotes, its own closing quotes doubled.  Only the names of a design are
    quoted; all other statements have their names bare. -/
def quote : Dialect → String → String
  | .sqlServer, name => Text.quoted '[' ']' name
  | _, name => Text.quoted '"' '"' name

/-! ## Types -/

/-- The precision of a decimal column that states none. -/
def defaultPrecision : UInt8 := 18

/-- The scale of a decimal column that states none. -/
def defaultScale : UInt8 := 2

/-- A type name with a length, or a name for text of any length. -/
def sized (name unbounded : String) (length : Option UInt32) : String :=
  match length with
  | some n => name ++ "(" ++ Text.ofNat n.toNat ++ ")"
  | none => unbounded

/-- A type name with precision and scale.  Each of them has its default alone: a column
    may state one and leave the other out. -/
def fixedPoint (name : String) (c : ColumnDesign) : String :=
  name ++ "(" ++ Text.ofNat (c.precision.getD defaultPrecision).toNat ++ ", "
    ++ Text.ofNat (c.scale.getD defaultScale).toNat ++ ")"

/-- The backend type of a designed column. -/
def columnType (d : Dialect) (c : ColumnDesign) : String :=
  match d, c.dataType with
  | .sqlite, .string => sized "VARCHAR" "TEXT" c.length
  | .sqlite, .integer => "INTEGER"
  | .sqlite, .decimal => fixedPoint "DECIMAL" c
  | .sqlite, .dateTime => "DATETIME"
  | .sqlite, .boolean => "BOOLEAN"
  | .sqlServer, .string => sized "NVARCHAR" "NVARCHAR(MAX)" c.length
  | .sqlServer, .integer => "INT"
  | .sqlServer, .decimal => fixedPoint "DECIMAL" c
  | .sqlServer, .dateTime => "DATETIME"
  | .sqlServer, .boolean => "BIT"
  | .postgres, .string => sized "VARCHAR" "TEXT" c.length
  | .postgres, .integer => "INTEGER"
  | .postgres, .decimal => fixedPoint "NUMERIC" c
  | .postgres, .dateTime => "TIMESTAMP"
  | .postgres, .boolean => "BOOLEAN"

/-- The backend type of a storage class. -/
def storageType (d : Dialect) (c : StorageClass) : String :=
  match d, c with
  | .sqlite, .integer => "INTEGER"
  | .sqlite, .real => "REAL"
  | .sqlite, .text => "TEXT"
  | .sqlite, .blob => "BLOB"
  | .sqlite, .numeric => "NUMERIC"
  | .sqlite, .boolean => "BOOLEAN"
  | .sqlServer, .integer => "INT"
  | .sqlServer, .real => "FLOAT"
  | .sqlServer, .text => "NVARCHAR(MAX)"
  | .sqlServer, .blob => "VARBINARY(MAX)"
  | .sqlServer, .numeric => "DECIMAL(18, 2)"
  | .sqlServer, .boolean => "BIT"
  | .postgres, .integer => "INTEGER"
  | .postgres, .real => "DOUBLE PRECISION"
  | .postgres, .text => "TEXT"
  | .postgres, .blob => "BYTEA"
  | .postgres, .numeric => "NUMERIC"
  | .postgres, .boolean => "BOOLEAN"

/-! ## Generated columns -/

/-- The words that mark a generated integer column. -/
def generatedMark : Dialect → String
  | .sqlite => "AUTOINCREMENT"
  | .sqlServer => "IDENTITY(1,1)"
  | .postgres => "GENERATED BY DEFAULT AS IDENTITY"

/-- The mark of a generated column stands after `PRIMARY KEY`, and makes the
    column the key. -/
def marksAfterKey : Dialect → Bool
  | .sqlite => true
  | _ => false

/-! ## Names and values -/

/-- The placeholder of the parameter at a position, counted from zero. -/
def placeholder : Dialect → Nat → String
  | .sqlite, i => "?" ++ Text.ofNat (i + 1)
  | .sqlServer, i => "@p" ++ Text.ofNat i
  | .postgres, i => "$" ++ Text.ofNat (i + 1)

/-- The words that this dialect reserves besides the common ones.  A table name may be
    valid in one dialect and refused in another. -/
def reservedWords : Dialect → List String
  | .sqlite => ["AUTOINCREMENT", "PRAGMA", "VACUUM"]
  | .sqlServer => ["IDENTITY", "TOP", "USER", "PROC", "PROCEDURE", "TRAN", "TRANSACTION"]
  | .postgres => ["ANALYSE", "ANALYZE", "LIMIT", "OFFSET", "RETURNING", "USER"]

/-- A name that may stand in a statement of this dialect. -/
def isValidName (d : Dialect) (name : String) : Bool := Identifier.isValid d.reservedWords name

/-- The literal that denotes a value. -/
def literal (d : Dialect) (v : Value) : String :=
  match d, v with
  -- the others have no literal of a truth value and write a number
  | .postgres, .bool b => if b then "TRUE" else "FALSE"
  | _, v => v.literal

end Dialect

end Gridbase
