import Gridbase.Gateway.Bulk
import Gridbase.Intake
import Gridbase.Json.Reading
import Gridbase.Json.Schema
import Gridbase.Json.Sheet
import Gridbase.Sheet.EntryForm

/-! # Commands

    What can be asked for from the command line.  A command reads at most one
    file, before anything else, and works on a session through a gateway.  A
    sheet is imported only if it was read without problems, unless problems are
    allowed. -/

namespace Gridbase

/-! ## Files -/

/-- A file that a command reads: the path it is known by, and its text if it can be
    read. -/
structure InputFile where
  path : String
  text : Option String
deriving DecidableEq

/-- Why a command failed: a file, problems with a sheet, or what the library has
    reported. -/
inductive CommandFault
  | unreadable (path : String)
  | malformed (path : String)
  | refused (problems : Nat)
  | failed (cause : Failure)
deriving DecidableEq

/-- The failure in one line. -/
def CommandFault.message : CommandFault → String
  | .unreadable path => "Failed to read " ++ path
  | .malformed path => "Failed to parse " ++ path
  | .refused problems =>
      "Refusing to import with " ++ Text.ofNat problems
        ++ " problem(s); pass --allow-warnings to import anyway."
  | .failed cause => cause.message

/-- The value that a file describes.  A text that is no JSON and one of another shape
    are the same fault: the file cannot be used. -/
def InputFile.read {α : Type} (value? : Json → Option α) (f : InputFile) :
    Except CommandFault α :=
  match f.text with
  | none => .error (.unreadable f.path)
  | some text =>
      match (Json.parse? text).bind value? with
      | some a => .ok a
      | none => .error (.malformed f.path)

/-! ## Commands -/

/-- How an import writes rows: under a key, or as new ones; and whether problems
    with the sheet are allowed. -/
structure ImportOptions where
  key : Option String := none
  allowProblems : Bool := false
deriving DecidableEq

/-- A command with its arguments.  Files come with their texts, as they were read
    before.  -/
inductive Command
  | compile (dialect : Dialect) (design : InputFile)
  | create (design : InputFile)
  | columns (table : String)
  | checkRevision (dialect : Dialect) (table : String) (changes : InputFile)
  | template (table : String)
  | importSheet (table : String) (grid : InputFile) (options : ImportOptions)
  | drop (table : String)
  | rename (old new : String)
deriving DecidableEq

/-- What a command prints: nothing, lines of text, or data. -/
inductive Output
  | nothing
  | text (s : String)
  | data (j : Json)

/-- The printed form; data goes over several lines. -/
def Output.printed? : Output → Option String
  | .nothing => none
  | .text s => some s
  | .data j => some (j.pretty 0)

/-- A command at work on a session. -/
abbrev Task (α : Type) := ExceptT CommandFault (StateM Session) α

namespace Command

/-- An action as a part of a command. -/
def act {α : Type} (a : Action α) : Task α := a.adapt CommandFault.failed

/-- A result computed without the session.  A fault ends the command, and what was done
    before stays done. -/
def settle {α : Type} (result : Except CommandFault α) : Task α :=
  match result with
  | .ok a => pure a
  | .error fault => throw fault

/-- A result of the library computed without the session. -/
def check {α : Type} (result : Except Failure α) : Task α :=
  settle (result.mapError CommandFault.failed)

/-! ## The commands one by one -/

/-- The CREATE TABLE text of a design.  No table is made. -/
def compileDesign (d : Dialect) (design : InputFile) : Except CommandFault String := do
  let t ← design.read TableDesign.ofJson?
  (t.compile d).mapError CommandFault.failed

/-- Makes the table of a design. -/
def createTable (g : Gateway) (design : InputFile) : Task Unit := do
  let t ← settle (design.read TableDesign.ofJson?)
  act (g.createDesigned t)

/-- Checks changes against the columns of a table as they are now.  The changes are not
    carried out. -/
def checkChanges (g : Gateway) (d : Dialect) (table : String) (changes : InputFile) :
    Task Unit := do
  let list ← settle (changes.read (Json.array? Revision.ofJson?))
  let existing ← act (g.columnInfo table)
  check (TableRevision.validate d { tableName := table, changes := list } existing)

/-- The input form of a table, from its columns as they are now. -/
def entryForm (g : Gateway) (table : String) : Task Sheet := do
  let columns ← act (g.columnInfo table)
  check (Sheet.entryForm columns {})

/-- Writes the dataset of a report.  Nothing can cancel a command, so that all rows
    are tried up to the first failure. -/
def writeReport (g : Gateway) (r : Intake.Report) (options : ImportOptions) : Task Unit :=
  if !r.isClean && !options.allowProblems then throw (.refused r.problems.length)
  else
    match options.key with
    | some key => act (discard (g.upsertDataset .never r.dataset key))
    | none => act (discard (g.insertDataset .never r.dataset))

/-- Reads a sheet and writes its rows to a table.  Between the two its problems decide
    whether anything is written. -/
def importRows (g : Gateway) (table : String) (grid : InputFile) (options : ImportOptions) :
    Task Unit := do
  let rows ← settle (grid.read Sheet.rowsOfJson?)
  let columns ← act (g.columnInfo table)
  let report ← check (Intake.run .never (Sheet.ofRows rows) columns table)
  writeReport g report options

/-! ## Running -/

/-- The columns of a table as data. -/
def columnData (columns : List ColumnInfo) : Json := .array (columns.map ColumnInfo.toJson)

/-- Carries out a command, and gives what it prints. -/
def run (g : Gateway) : Command → Task Output
  | .compile dialect design => do return .text (← settle (compileDesign dialect design))
  | .create design => do
      createTable g design
      return .nothing
  | .columns table => do return .data (columnData (← act (g.columnInfo table)))
  | .checkRevision dialect table changes => do
      checkChanges g dialect table changes
      return .nothing
  | .template table => do return .data (← entryForm g table).toJson
  | .importSheet table grid options => do
      importRows g table grid options
      return .nothing
  | .drop table => do
      act (g.dropTable table)
      return .nothing
  | .rename old new => do
      act (g.renameTable old new)
      return .nothing

end Command

end Gridbase
