import Gridbase.Command.Arguments

/-! # The program

    Carries out the commands of a command line, one after the other, on a
    database that lives as long as the program, and prints what they give.  The
    first failure ends the program. -/

namespace Gridbase.Main

/-- The database of the program is always at hand. -/
def gateway : Gateway := { address := .ok "memory" }

/-- The text of a file, if it can be read. -/
def readFile (path : String) : IO (Option String) := do
  try
    return some (← IO.FS.readFile path)
  catch _ => return none

/-- The texts of the files at some paths. -/
def readFiles : List String → IO (String → Option String)
  | [] => return fun _ => none
  | path :: rest => do
      let text ← readFile path
      let others ← readFiles rest
      return fun p => if p = path then text else others p

/-- Prints the output of a command on a line of its own; a command without output
    prints nothing. -/
def printOutput (output : Output) : IO Unit :=
  match output.printed? with
  | some text => IO.println text
  | none => return ()

/-- Carries out commands until one fails; tells whether all succeeded. -/
def runAll : List (List String) → Session → IO Bool
  | [], _ => return true
  | words :: rest, session => do
      match Arguments.read words with
      | .error fault =>
          IO.eprintln ("error: " ++ fault.message)
          return false
      | .ok arguments =>
          -- the only input of a command, read before it starts
          let files ← readFiles arguments.paths
          match arguments.command files with
          | .error fault =>
              IO.eprintln ("error: " ++ fault.message)
              return false
          | .ok command =>
              match (command.run gateway).run session with
              | (.ok output, session) =>
                  printOutput output
                  runAll rest session
              | (.error fault, _) =>
                  IO.eprintln ("Error: " ++ fault.message)
                  return false

end Gridbase.Main

/-- Runs the commands given as arguments. -/
def main (args : List String) : IO UInt32 := do
  if ← Gridbase.Main.runAll (Gridbase.Arguments.commands args) {} then return 0 else return 1
