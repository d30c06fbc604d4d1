import Gridbase.Command

/-! # Command line arguments

    The words of a command line and the command they stand for.  A command is a
    name, options with a value each, and switches; several commands in one line
    are separated by the word `then`. -/

namespace Gridbase

/-- What is wrong with a command line. -/
inductive UsageFault
  | noCommand
  | unknownCommand (name : String)
  | unknownDialect (name : String)
  | unexpectedWord (word : String)
  | missingValue (option : String)
  | missingOption (option : String)
deriving DecidableEq

/-- The fault in one line. -/
def UsageFault.message : UsageFault → String
  | .noCommand => "a command is required"
  | .unknownCommand name => "unknown command '" ++ name ++ "'"
  | .unknownDialect name => "unknown dialect '" ++ name ++ "'"
  | .unexpectedWord word => "unexpected argument '" ++ word ++ "'"
  | .missingValue option => "a value is required for '--" ++ option ++ "'"
  | .missingOption option => "the option '--" ++ option ++ "' is required"

/-- The words of one command, before it is known what they stand for. -/
structure Arguments where
  name : String
  options : List (String × String) := []
  switches : List String := []
deriving DecidableEq

namespace Arguments

/-! ## Words -/

/-- The parts of a line between the separating words.  There is at least one part, and a
    part may be empty. -/
def commands : List String → List (List String)
  | [] => [[]]
  | word :: rest =>
      if word = "then" then [] :: commands rest
      else
        match commands rest with
        | first :: others => (word :: first) :: others
        | [] => [[word]]

/-- The option that a word names. -/
def option? (word : String) : Option String :=
  match word.toList with
  | '-' :: '-' :: name => some (String.ofList name)
  | _ => none

/-- The options that stand alone; every other one takes the next word as its value,
    whatever that word is. -/
def isSwitch (name : String) : Bool := name = "allow-warnings"

/-- Reads options and switches.  An option takes the word that follows it, whatever it
    looks like. -/
def readOptions (a : Arguments) : List String → Except UsageFault Arguments
  | [] => .ok a
  | [word] =>
      match option? word with
      | none => .error (.unexpectedWord word)
      | some name =>
          if isSwitch name then .ok { a with switches := a.switches ++ [name] }
          else .error (.missingValue name)
  | word :: value :: rest =>
      match option? word with
      | none => .error (.unexpectedWord word)
      | some name =>
          if isSwitch name then
            readOptions { a with switches := a.switches ++ [name] } (value :: rest)
          else readOptions { a with options := a.options ++ [(name, value)] } rest

/-- Reads the words of a command. -/
def read : List String → Except UsageFault Arguments
  | [] => .error .noCommand
  | name :: rest => readOptions { name } rest

/-! ## Commands -/

/-- The value of an option, the first one if it is given more than once. -/
def value? (a : Arguments) (option : String) : Option String :=
  (a.options.find? fun o => o.1 = option).map Prod.snd

/-- The value of an option that has to be given. -/
def value (a : Arguments) (option : String) : Except UsageFault String :=
  match a.value? option with
  | some v => .ok v
  | none => .error (.missingOption option)

/-- The dialect asked for, that of SQLite if there is none. -/
def dialect (a : Arguments) : Except UsageFault Dialect :=
  match a.value? "dialect" with
  | none => .ok .sqlite
  | some name =>
      match Dialect.ofName? name with
      | some d => .ok d
      | none => .error (.unknownDialect name)

/-- The file that an option names, with its text if it could be read. -/
def file (a : Arguments) (files : String → Option String) (option : String) :
    Except UsageFault InputFile := do
  let path ← a.value option
  return ⟨path, files path⟩

/-- The options that name files. -/
def fileOptions : List String := ["spec", "changes", "grid"]

/-- The paths of the files that may be read. -/
def paths (a : Arguments) : List String := fileOptions.filterMap a.value?

/-- The command that the arguments stand for, with the texts of the files. -/
def command (a : Arguments) (files : String → Option String) : Except UsageFault Command := do
  match a.name with
  | "compile" => return .compile (← a.dialect) (← a.file files "spec")
  | "create" => return .create (← a.file files "spec")
  | "columns" => return .columns (← a.value "table")
  | "validate-update" =>
      return .checkRevision (← a.dialect) (← a.value "table") (← a.file files "changes")
  | "template" => return .template (← a.value "table")
  | "import" =>
      return .importSheet (← a.value "table") (← a.file files "grid")
        { key := a.value? "upsert", allowProblems := a.switches.contains "allow-warnings" }
  | "drop" => return .drop (← a.value "table")
  | "rename" => return .rename (← a.value "table") (← a.value "to")
  | name => .error (.unknownCommand name)

end Arguments

end Gridbase
