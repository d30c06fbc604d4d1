import Gridbase.Failure
import Gridbase.Text

/-! # Column types

    The types that a column can have whatever the backend, the storage classes
    of the statement builders, and the readers of type names: a strict one that
    refuses unknown names and a lenient one for names declared in a database. -/

namespace Gridbase

/-- The backend-independent column types.  Designs and metadata are written in these. -/
inductive DataType
  | string
  | integer
  | decimal
  | dateTime
  | boolean
deriving DecidableEq

namespace DataType

/-- All column types. -/
def all : List DataType := [.string, .integer, .decimal, .dateTime, .boolean]

/-- The canonical name. -/
def name : DataType → String
  | .string => "String"
  | .integer => "Integer"
  | .decimal => "Decimal"
  | .dateTime => "DateTime"
  | .boolean => "Boolean"

/-- The type with a canonical name, spelled exactly. -/
def ofName? (s : String) : Option DataType := all.find? fun t => t.name == s

/-- The names, in lower case, that mean a type.  No name means two of them. -/
def aliases : DataType → List String
  | .integer => ["int", "integer", "bigint", "smallint"]
  | .decimal => ["decimal", "numeric", "float", "double", "real"]
  | .dateTime => ["datetime", "date", "timestamp"]
  | .boolean => ["bit", "bool", "boolean"]
  | .string => ["string", "text", "nvarchar", "varchar", "char", "nchar"]

/-- The type that a name means, surrounding blanks and case aside. -/
def parse? (s : String) : Option DataType :=
  let folded := String.ofList (Text.lower (Text.trim s.toList))
  all.find? fun t => t.aliases.contains folded

/-- The type that a name means; an unknown name is refused as written, with its case and
    its blanks. -/
def parse (s : String) : Except Failure DataType :=
  match parse? s with
  | some t => .ok t
  | none => .error (.unsupportedType s)

/-- The name of a declared type without its arguments, in upper case.  Blanks between
    the name and its arguments do not count. -/
def declaredBase (s : String) : List Char :=
  Text.trim ((Text.upper (Text.trim s.toList)).takeWhile (· != '('))

/-- The type of a declared type name; a name that means nothing is text. -/
def ofDeclared (s : String) : DataType :=
  let base := declaredBase s
  let begins (head : String) : Bool := Text.startsWith head.toList base
  -- the integer types are sought first and anywhere, as the database does
  if Text.occursIn "INT".toList base then .integer
  else if ["REAL", "FLOAT", "DOUBLE", "DECIMAL", "NUMERIC", "MONEY"].any begins then .decimal
  else if begins "DATE" || begins "TIME" then .dateTime
  else if begins "BOOL" || base == "BIT".toList then .boolean
  else .string

end DataType

/-- The storage classes of the statement builders, under the names that the database
    knows. -/
inductive StorageClass
  | integer
  | real
  | text
  | blob
  | numeric
  | boolean
deriving DecidableEq

namespace StorageClass

/-- All storage classes. -/
def all : List StorageClass := [.integer, .real, .text, .blob, .numeric, .boolean]

/-- The name, in upper case. -/
def name : StorageClass → String
  | .integer => "INTEGER"
  | .real => "REAL"
  | .text => "TEXT"
  | .blob => "BLOB"
  | .numeric => "NUMERIC"
  | .boolean => "BOOLEAN"

/-- The storage class with a name, surrounding blanks and case aside. -/
def parse (s : String) : Except Failure StorageClass :=
  let folded := String.ofList (Text.upper (Text.trim s.toList))
  match all.find? fun c => c.name == folded with
  | some c => .ok c
  | none => .error (.unsupportedType s)

end StorageClass

end Gridbase
