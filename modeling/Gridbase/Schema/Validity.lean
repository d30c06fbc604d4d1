import Gridbase.Dialect

/-! # Valid table designs

    The rules that a table design has to keep before it is written, and the
    first one that it breaks: the rules on the table, then those on each column
    in order, then the rule on the primary key. -/

namespace Gridbase

/-- A rule that a table design breaks, with the name that breaks it where there is one.
    -/
inductive DesignFault
  | blankTable
  | invalidTable (name : String)
  | noColumns
  | blankColumn
  | invalidColumn (name : String)
  | duplicateColumn (name : String)
  | generatedNotInteger (name : String)
  | severalKeys
deriving DecidableEq

/-- What is wrong.  A name is shown as the design has it, blanks included. -/
def DesignFault.message : DesignFault → String
  | .blankTable => "Table name cannot be empty."
  | .invalidTable name => "Table name '" ++ name ++ "' is not a valid SQL identifier."
  | .noColumns => "Table must have at least one column."
  | .blankColumn => "Column name cannot be empty."
  | .invalidColumn name => "Column name '" ++ name ++ "' is not a valid SQL identifier."
  | .duplicateColumn name => "Duplicate column name found: '" ++ name ++ "'."
  | .generatedNotInteger name =>
      "Auto-incrementing column '" ++ name ++ "' must be of type 'Integer'."
  | .severalKeys => "A table can have at most one primary key."

namespace TableDesign

/-- The column is the key in a dialect, declared or because it is generated. -/
def isKeyColumn (d : Dialect) (c : ColumnDesign) : Bool :=
  c.isPrimaryKey || (d.marksAfterKey && c.isAutoIncrementing)

/-- The first rule that a column breaks after columns with the given names.  A name that
    is taken is reported at its second column. -/
def columnFault? (d : Dialect) (earlier : List String) (c : ColumnDesign) :
    Option DesignFault :=
  -- a blank name is not valid either, and is reported as blank
  if Text.allBlank c.name then some .blankColumn
  else if !d.isValidName c.name then some (.invalidColumn c.name)
  else if earlier.any (Text.sameName c.name) then some (.duplicateColumn c.name)
  else if c.isAutoIncrementing && c.dataType != .integer then some (.generatedNotInteger c.name)
  else none

/-- The first rule that some column breaks, from left to right. -/
def columnsFault? (d : Dialect) : List String → List ColumnDesign → Option DesignFault
  | _, [] => none
  | earlier, c :: rest =>
      match columnFault? d earlier c with
      | some fault => some fault
      | none => columnsFault? d (c.name :: earlier) rest

/-- The first rule that a design breaks: its name, its columns one by one, and its key
    at last. -/
def fault? (d : Dialect) (t : TableDesign) : Option DesignFault :=
  if Text.allBlank t.tableName then some .blankTable
  else if !d.isValidName t.tableName then some (.invalidTable t.tableName)
  else if t.columns.isEmpty then some .noColumns
  else
    match columnsFault? d [] t.columns with
    | some fault => some fault
    -- only the columns together can break the rule on the key
    | none => if 1 < t.columns.countP (isKeyColumn d) then some .severalKeys else none

/-- Refuses a design that breaks a rule, with the message of the first one. -/
def validate (d : Dialect) (t : TableDesign) : Except Failure Unit :=
  match fault? d t with
  | some fault => .error (.invalid fault.message)
  | none => .ok ()

end TableDesign

end Gridbase
