import Gridbase.Cell
import Gridbase.Sheet
import Gridbase.Sheet.ColumnLetters

/-! # Entry forms

    A sheet prepared for input: a locked row of headers, an unlocked column for
    each column of a table with a rule that fits its type, and protection
    against a change of the columns.  Metadata that gives no form leaves no
    form.

    A form is made of a sheet as a whole (`entryForm`), or in place by one
    call after the other (`decorate`). -/

namespace Gridbase

/-- Why metadata gives no form.  The first column that cannot be in one is reported. -/
inductive FormFault
  | noColumns
  | blankName (index : Nat)
  | unknownType (dataType column : String)
deriving DecidableEq

/-- The failure that a fault stands for. -/
def FormFault.toFailure : FormFault → Failure
  | .noColumns => .invalid "Column metadata cannot be empty."
  | .blankName index =>
      .invalid ("Column name at index " ++ Text.ofNat index ++ " cannot be empty.")
  | .unknownType dataType column =>
      .unsupportedType ("Invalid data type '" ++ dataType ++ "' for column '" ++ column ++ "'.")

namespace Sheet

/-! ## Columns of a form -/

/-- A column of a form with its type, which is known. -/
structure FormColumn where
  name : String
  type : DataType
  length : Option UInt32
deriving DecidableEq

/-- The column for some metadata, found at an index.  Indices count from zero, unlike
    the columns of a sheet. -/
def formColumn (index : Nat) (c : ColumnInfo) : Except FormFault FormColumn :=
  if Text.allBlank c.name then .error (.blankName index)
  else
    match DataType.parse? c.dataType with
    | some type => .ok ⟨c.name, type, c.length⟩
    | none => .error (.unknownType c.dataType c.name)

/-- The columns for metadata whose first entry has an index. -/
def formColumnsFrom : Nat → List ColumnInfo → Except FormFault (List FormColumn)
  | _, [] => .ok []
  | index, c :: rest => do
      let column ← formColumn index c
      return column :: (← formColumnsFrom (index + 1) rest)

/-- The columns for metadata, which has at least one entry.  Indices in faults are
    counted from zero. -/
def formColumns (columns : List ColumnInfo) : Except FormFault (List FormColumn) :=
  if columns.isEmpty then .error .noColumns else formColumnsFrom 0 columns

/-! ## Styles and rules -/

/-- The name of the sheet of a form. -/
def formName : String := "Data Input"

/-- The last row that the rules cover, which is the last one that a spreadsheet has. -/
def lastRow : Nat := 1048576

/-- Bold on light gray, and locked. -/
def headerStyle : Style := { bold := true, fill := some "LightGray", locked := true }

/-- Open for input. -/
def inputStyle : Style := {}

/-- The least decimal of the backends, -7.922816251426434e28. -/
def minDecimal : Binary64 := ⟨0xC5F0000000000000⟩

/-- Rows may change and columns may not.  Locked cells cannot even be selected. -/
def formProtection : Protection where
  deleteColumns := false
  insertColumns := false
  deleteRows := true
  insertRows := true
  sort := true
  formatColumns := true
  selectLockedCells := false
  selectUnlockedCells := true

/-- The cells below the header of a column, down to the last row that a sheet can have.
    -/
def dataRange (col : UInt32) : String :=
  columnLetters col ++ "2:" ++ columnLetters col ++ Text.ofNat lastRow

/-- The rule for texts of a limited length. -/
def lengthValidation (col : UInt32) (limit : UInt32) : Validation where
  range := dataRange col
  rule := .custom ("LEN(" ++ columnLetters col ++ "2)<=" ++ Text.ofNat limit.toNat)
  alert := some
    { title := "Invalid Input"
      message := "Text length must be less than or equal to " ++ Text.ofNat limit.toNat
        ++ " characters." }

/-- The rule for a column; text without a limit has none.  The formula of a limit names
    the first cell below the header. -/
def validation? (col : UInt32) (c : FormColumn) : Option Validation :=
  match c.type with
  | .integer => some { range := dataRange col, rule := .wholeNumber (-2147483648) }
  | .decimal => some { range := dataRange col, rule := .decimal minDecimal }
  | .dateTime => some { range := dataRange col, rule := .date Cell.minDate }
  | .boolean => some { range := dataRange col, rule := .list ["TRUE", "FALSE"] }
  | .string =>
      match c.length with
      -- a limit of zero stands for no limit
      | some limit => if limit = 0 then none else some (lengthValidation col limit)
      | none => none

/-! ## The form -/

/-- Writes the headers from a column on, each with its style. -/
def writeHeaders : UInt32 → List FormColumn → Sheet → Sheet
  | _, [], s => s
  | col, c :: rest, s =>
      writeHeaders (col + 1) rest ((s.setCell 1 col c.name).setCellStyle 1 col headerStyle)

/-- Opens the columns from a column on and adds their rules. -/
def openColumns : UInt32 → List FormColumn → Sheet → Sheet
  | _, [], s => s
  | col, c :: rest, s =>
      let s := s.setColumnStyle col inputStyle
      let s :=
        match validation? col c with
        | some v => s.addValidation v
        | none => s
      openColumns (col + 1) rest s

/-- The sheet as a form for some columns.  Protection comes last: it locks what the
    styles before it have left locked. -/
def decorated (columns : List FormColumn) (s : Sheet) : Sheet :=
  (openColumns 1 columns (writeHeaders 1 columns (s.rename formName))).protect formProtection

/-- The sheet as an entry form for a table.  Metadata that gives no form leaves it as it
    was. -/
def entryForm (columns : List ColumnInfo) (s : Sheet) : Except Failure Sheet :=
  match formColumns columns with
  | .ok columns => .ok (decorated columns s)
  | .error fault => .error fault.toFailure

/-! ## In place -/

/-- Writes the header of a column. -/
def writeHeader (col : UInt32) (c : FormColumn) : StateM Sheet Unit := do
  modify fun s => s.setCell 1 col c.name
  modify fun s => s.setCellStyle 1 col headerStyle

/-- Opens a column and adds its rule. -/
def openColumn (col : UInt32) (c : FormColumn) : StateM Sheet Unit := do
  modify fun s => s.setColumnStyle col inputStyle
  match validation? col c with
  | some v => modify fun s => s.addValidation v
  | none => pure ()

/-- Does something for each column, from a column on. -/
def forColumns (act : UInt32 → FormColumn → StateM Sheet Unit) :
    UInt32 → List FormColumn → StateM Sheet Unit
  | _, [] => pure ()
  | col, c :: rest => do
      act col c
      forColumns act (col + 1) rest

/-- Writes a form, call by call. -/
def writeForm (columns : List FormColumn) : StateM Sheet Unit := do
  modify fun s => s.rename formName
  forColumns writeHeader 1 columns
  forColumns openColumn 1 columns
  modify fun s => s.protect formProtection

/-- Makes a sheet an entry form in place.  What is written before a failure
    stays written, so that all metadata is checked before the first call. -/
def decorate (columns : List ColumnInfo) : ExceptT Failure (StateM Sheet) Unit :=
  match formColumns columns with
  | .error fault => throw fault.toFailure
  | .ok columns => writeForm columns

end Sheet

end Gridbase
