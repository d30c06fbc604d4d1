import Gridbase.Cancellation
import Gridbase.Cell
import Gridbase.Dataset
import Gridbase.Sheet

/-! # Intake

    A sheet read as a dataset.  The headers of row 1, up to the first blank one,
    choose the columns; the rows that follow, up to the first without data in a
    chosen column, give the values.  What does not fit is recorded as a problem
    and, where a value is needed, replaced. -/

namespace Gridbase

/-- Something about a sheet that did not fit.  Only a sheet without data rows ends the
    intake. -/
inductive Problem
  | duplicateHeader (header : String) (position : Nat)
  | invalidHeaders (headers : List String)
  | missingColumns (names : List String)
  | rejectedCell (place : CellPlace) (fault : CellFault)
  | unsupportedType (dataType header : String) (row : Nat)
  | missingValue (header : String) (row : Nat)
  | noRows
  | unevenColumns (message : String)
deriving DecidableEq

/-- What did not fit. -/
def Problem.message : Problem → String
  | .duplicateHeader header position =>
      "Duplicate header '" ++ header ++ "' at column " ++ Text.ofNat position
        ++ ". Ignoring repeated column."
  | .invalidHeaders headers =>
      "Invalid headers found: " ++ Text.joinWith ", " headers ++ ". Ignoring invalid columns."
  | .missingColumns names => "Missing required columns: " ++ Text.joinWith ", " names ++ "."
  | .rejectedCell place fault => fault.message place
  | .unsupportedType dataType header row =>
      "Unsupported data type '" ++ dataType ++ "' for column '" ++ header ++ "' at row "
        ++ Text.ofNat row ++ "."
  | .missingValue header row =>
      "Value for non-nullable column '" ++ header ++ "' at row " ++ Text.ofNat row
        ++ " cannot be null."
  | .noRows => "No valid data rows found in the grid."
  | .unevenColumns message => message

namespace Intake

/-! ## Headers -/

/-- A header and its position, counted from 1. -/
structure Header where
  text : String
  position : Nat
deriving DecidableEq

/-- The headers before the first blank one.  A header further right is not seen, and
    neither are the cells below it. -/
def headers (s : Sheet) : List Header :=
  (((s.rows.headD []).takeWhile fun t => !Text.allBlank t).zipIdx 1).map fun h => ⟨h.1, h.2⟩

/-- A column of the table that a header has chosen, and its place among the columns.
    Two columns of one name are told apart by their places. -/
structure Kept where
  header : Header
  info : ColumnInfo
  place : Nat
deriving DecidableEq

/-- What the headers choose, and those that choose nothing: repeated ones, and those
    that no column is known by. -/
structure Selection where
  kept : List Kept := []
  repeated : List Header := []
  unknown : List Header := []
deriving DecidableEq

/-- The first column that a header names, blanks around it and case aside, and its
    place. -/
def named? (columns : List ColumnInfo) (h : Header) : Option (ColumnInfo × Nat) :=
  columns.zipIdx.find? fun c => Text.sameName c.1.name (Text.trimmed h.text)

/-- A column of the name has been chosen. -/
def Selection.has (s : Selection) (name : String) : Bool :=
  s.kept.any fun k => Text.sameName k.info.name name

/-- The column at the place has been chosen already. -/
def Selection.uses (s : Selection) (place : Nat) : Bool :=
  s.kept.any fun k => k.place == place

/-- Takes in one more header: it chooses a column, repeats one, or is unknown. -/
def Selection.add (columns : List ColumnInfo) (s : Selection) (h : Header) : Selection :=
  match named? columns h with
  | some (info, place) =>
      if s.uses place then { s with repeated := s.repeated ++ [h] }
      else { s with kept := s.kept ++ [⟨h, info, place⟩] }
  | none => { s with unknown := s.unknown ++ [h] }

/-- What the headers of a sheet choose, from left to right.  The first header for a
    column wins. -/
def select (columns : List ColumnInfo) (hs : List Header) : Selection :=
  hs.foldl (Selection.add columns) {}

/-- The columns that need a value and have no header.  A generated column gets its
    value from the table and needs none. -/
def missing (columns : List ColumnInfo) (s : Selection) : List String :=
  (columns.filter fun c => !c.isNullable && !c.isAutoIncrementing && !s.has c.name).map
    ColumnInfo.name

/-- The problems with the headers: each repeated one by itself, and then all that are
    unknown and all that are missing. -/
def headerProblems (columns : List ColumnInfo) (s : Selection) : List Problem :=
  s.repeated.map (fun h => .duplicateHeader h.text h.position)
    ++ (if s.unknown.isEmpty then [] else [.invalidHeaders (s.unknown.map Header.text)])
    ++ (if (missing columns s).isEmpty then [] else [.missingColumns (missing columns s)])

/-! ## Rows -/

/-- The text of a row under a kept header, empty where the row is shorter. -/
def textUnder (cells : List String) (k : Kept) : String :=
  (cells[k.header.position - 1]?).getD ""

/-- Some kept header has a text that is not blank under it.  Cells under other headers
    do not keep a row from being the last one. -/
def hasData (kept : List Kept) (cells : List String) : Bool :=
  kept.any fun k => !Text.allBlank (textUnder cells k)

/-- The value that a cell text gives, NULL if none, and why it is none. -/
def cellValue (row : Nat) (k : Kept) (text : String) : Value × List Problem :=
  -- a blank cell asks for no type, so that an unknown one is no problem there
  if Text.allBlank text then (.null, [])
  else
    match DataType.parse? k.info.dataType with
    | none => (.null, [.unsupportedType k.info.dataType k.header.text row])
    | some type =>
        match Cell.read type k.info text with
        | .ok v => (v, [])
        | .error fault => (.null, [.rejectedCell ⟨k.header.text, row, text⟩ fault])

/-- The value for a column that holds no NULL.  It is a substitute, and is reported as a
    missing value. -/
def filled (info : ColumnInfo) : Value :=
  match DataType.parse? info.dataType with
  | some type => Cell.substitute type
  | none => .null

/-- The value of a cell in its column, and the problems with it. -/
def readCell (row : Nat) (cells : List String) (k : Kept) : Value × List Problem :=
  let (v, problems) := cellValue row k (textUnder cells k)
  -- a rejected text is missing too, so that one cell may have two problems
  if v.isNull && !k.info.isNullable then
    (filled k.info, problems ++ [.missingValue k.header.text row])
  else (v, problems)

/-- Adds the values of a row to the dataset, with the problems they have, from left to
    right. -/
def readRow (row : Nat) (cells : List String) : List Kept → Dataset → Dataset × List Problem
  | [], d => (d, [])
  | k :: rest, d =>
      let (v, problems) := readCell row cells k
      let (d, more) := readRow row cells rest (d.pushValue k.info.name v)
      (d, problems ++ more)

/-- Adds the rows up to the first without data.  The index counts data rows from
    zero; the rows of the sheet count from 2. -/
def readRows (w : Watch) (kept : List Kept) :
    Nat → List (List String) → Dataset → Except Failure (Dataset × List Problem)
  | _, [], d => .ok (d, [])
  | i, cells :: rest, d =>
      if hasData kept cells then do
        checkpoint (w.beforeRow i)
        let (d, problems) := readRow (i + 2) cells kept d
        let (d, more) ← readRows w kept (i + 1) rest d
        return (d, problems ++ more)
      else .ok (d, [])

/-! ## Reports -/

/-- The dataset that a sheet gives and what did not fit.  Both are given together, for
    the caller to decide. -/
structure Report where
  dataset : Dataset
  problems : List Problem
deriving DecidableEq

/-- Everything fitted. -/
def Report.isClean (r : Report) : Bool := r.problems.isEmpty

/-- The messages of the problems. -/
def Report.messages (r : Report) : List String := r.problems.map Problem.message

/-- The dataset of the kept columns before any row.  A column without values is there
    all the same. -/
def emptyDataset (table : String) (kept : List Kept) : Dataset :=
  kept.foldl (fun d k => d.pushColumn k.info.name []) (Dataset.empty table)

/-- Cuts columns of unequal length, with the problem that they are.  Rows are read whole,
    so that there is nothing to cut after a reading. -/
def reconcile (d : Dataset) : Dataset × List Problem :=
  match d.truncationMessage? with
  | some message => (d.truncated, [.unevenColumns message])
  | none => (d, [])

/-- Reads a sheet into a dataset for a table with the given columns. -/
def run (w : Watch) (s : Sheet) (columns : List ColumnInfo) (table : String) :
    Except Failure Report := do
  if columns.isEmpty then throw (.invalid "Column metadata cannot be empty.")
  if Text.allBlank table then throw (.invalid "Table name cannot be empty.")
  if (headers s).isEmpty then throw (.invalid "No headers found in the grid.")
  let selection := select columns (headers s)
  let dataRows := s.rows.drop 1
  -- a sheet without data fails with all that is wrong with its headers
  if !(dataRows.head?.any (hasData selection.kept)) then
    throw (.validation
      ((headerProblems columns selection ++ [Problem.noRows]).map Problem.message))
  let (d, problems) ← readRows w selection.kept 0 dataRows (emptyDataset table selection.kept)
  let (d, uneven) := reconcile d
  return ⟨d, headerProblems columns selection ++ problems ++ uneven⟩

end Intake

end Gridbase
