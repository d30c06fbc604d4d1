import Gridbase.Failure.Driver

/-! # Faults of the store

    The reasons for which a statement fails, with the message and the result code
    that the database reports. -/

namespace Gridbase

/-- Why a statement failed.  A name is reported as the statement has it, or as it was
    declared where the fault is with a table that was found. -/
inductive StoreFault
  | unexpected (token : String)
  | noTable (name : String)
  | noColumn (name : String)
  | noInsertColumn (table column : String)
  | duplicateColumn (name : String)
  | tableExists (written : String)
  | nameTaken (name : String)
  | severalKeys (table : String)
  | generatedNotInteger
  | reservedName (name : String)
  | cannotDrop (name : String)
  | cannotAlter (name : String)
  | keyMismatch
  | missingValue (table column : String)
  | duplicateKey (table column : String)
  | keysExhausted
  | malformedTable (written : String)
deriving DecidableEq

namespace StoreFault

/-- What the database reports. -/
def message : StoreFault → String
  | .unexpected token => "near \"" ++ token ++ "\": syntax error"
  | .noTable name => "no such table: " ++ name
  | .noColumn name => "no such column: " ++ name
  | .noInsertColumn table column => "table " ++ table ++ " has no column named " ++ column
  | .duplicateColumn name => "duplicate column name: " ++ name
  | .tableExists written => "table " ++ written ++ " already exists"
  | .nameTaken name => "there is already another table or index with this name: " ++ name
  | .severalKeys table => "table \"" ++ table ++ "\" has more than one primary key"
  | .generatedNotInteger => "AUTOINCREMENT is only allowed on an INTEGER PRIMARY KEY"
  | .reservedName name => "object name reserved for internal use: " ++ name
  | .cannotDrop name => "table " ++ name ++ " may not be dropped"
  | .cannotAlter name => "table " ++ name ++ " may not be altered"
  | .keyMismatch => "datatype mismatch"
  | .missingValue table column => "NOT NULL constraint failed: " ++ table ++ "." ++ column
  | .duplicateKey table column => "UNIQUE constraint failed: " ++ table ++ "." ++ column
  | .keysExhausted => "database or disk is full"
  | .malformedTable written =>
      "malformed database schema (" ++ written ++ ") - near \"(\": syntax error"

/-- The result code of the database: the extended one for a constraint, and the
    general code 1 for what is wrong with the statement itself. -/
def code : StoreFault → String
  | .keyMismatch => "20"
  | .missingValue .. => "1299"
  | .duplicateKey .. => "1555"
  | .keysExhausted => "13"
  | .malformedTable _ => "11"
  | _ => "1"

/-- The error that the driver hands on.  Of all faults only a repeated key is marked
    as the violation of a uniqueness. -/
def toDriverError (f : StoreFault) : DriverError :=
  let isDuplicate :=
    match f with
    | .duplicateKey .. => true
    | _ => false
  .database f.message (some f.code) isDuplicate

/-- The failure that the fault stands for. -/
def toFailure (f : StoreFault) : Failure := f.toDriverError.toFailure

end StoreFault

end Gridbase
