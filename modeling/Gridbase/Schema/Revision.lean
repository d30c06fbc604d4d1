import Gridbase.Dialect

/-! # Revisions of a table

    Proposed changes to the columns of a table, checked in order against the
    names that the earlier ones leave. -/

namespace Gridbase

/-- One change to the columns of a table. -/
inductive Revision
  | add (column : ColumnDesign)
  | alter (column : ColumnDesign)
  | drop (name : String)
  | rename (old new : String)
deriving DecidableEq

/-- Changes to one table, in order. -/
structure TableRevision where
  tableName : String
  changes : List Revision := []
deriving DecidableEq

/-- Why changes are refused. -/
inductive RevisionFault
  | blankTable
  | noChanges
  | invalidName (name : String)
  | nameTaken (name : String)
  | newNameTaken (name : String)
  | unknownColumn (name : String)
deriving DecidableEq

/-- What is wrong. -/
def RevisionFault.message : RevisionFault → String
  | .blankTable => "Table name cannot be empty."
  | .noChanges => "No column updates were provided."
  | .invalidName name => "Column name '" ++ name ++ "' is not a valid SQL identifier."
  | .nameTaken name => "Column '" ++ name ++ "' already exists."
  | .newNameTaken name => "A column with the new name '" ++ name ++ "' already exists."
  | .unknownColumn name => "Column '" ++ name ++ "' does not exist."

namespace Revision

/-- A name is among the columns. -/
def isColumn (names : List String) (name : String) : Bool :=
  names.any fun n => Text.sameName n name

/-- The columns other than those of a name. -/
def without (names : List String) (name : String) : List String :=
  names.filter fun n => !Text.sameName n name

/-- The column names after one change, or why it is refused. -/
def apply (d : Dialect) (names : List String) : Revision → Except RevisionFault (List String)
  | .add c =>
      if !d.isValidName c.name then .error (.invalidName c.name)
      else if isColumn names c.name then .error (.nameTaken c.name)
      else .ok (names ++ [c.name])
  | .alter c =>
      if !isColumn names c.name then .error (.unknownColumn c.name) else .ok names
  | .drop name =>
      if !isColumn names name then .error (.unknownColumn name)
      else .ok (without names name)
  | .rename old new =>
      -- the old name still counts: a column cannot be renamed to itself in another case
      if !isColumn names old then .error (.unknownColumn old)
      else if !d.isValidName new then .error (.invalidName new)
      else if isColumn names new then .error (.newNameTaken new)
      else .ok (without names old ++ [new])

/-- The column names after a list of changes.  Each is checked against what the earlier
    ones leave, so that a dropped name is free again. -/
def applyAll (d : Dialect) : List String → List Revision → Except RevisionFault (List String)
  | names, [] => .ok names
  | names, change :: rest =>
      match change.apply d names with
      | .ok names => applyAll d names rest
      | .error fault => .error fault

end Revision

namespace TableRevision

/-- The column names after the changes, or the first fault. -/
def run (d : Dialect) (r : TableRevision) (names : List String) :
    Except RevisionFault (List String) :=
  if Text.allBlank r.tableName then .error .blankTable
  else if r.changes.isEmpty then .error .noChanges
  else Revision.applyAll d names r.changes

/-- Refuses changes that do not fit the existing columns. -/
def validate (d : Dialect) (r : TableRevision) (existing : List ColumnInfo) :
    Except Failure Unit :=
  match r.run d (existing.map ColumnInfo.name) with
  | .ok _ => .ok ()
  | .error fault => .error (.invalid fault.message)

end TableRevision

end Gridbase
