import Gridbase.Dialect

/-! # Queries

    A statement is written as fragments: text, and values that are bound as
    parameters.  A query numbers the values from left to right and puts the
    placeholder of each number in its place, so that text and parameters agree
    by construction. -/

namespace Gridbase

/-- A piece of a statement: text as it is, or the place of a value. -/
inductive Fragment
  | text (s : String)
  | parameter (v : Value)
deriving DecidableEq

/-- A value bound to a placeholder.  Its name has its number, counted from zero. -/
structure Parameter where
  name : String
  value : Value
deriving DecidableEq

/-- The text of a statement and its parameters in the order of their
    placeholders. -/
structure Query where
  sql : String
  parameters : List Parameter := []
deriving DecidableEq

namespace Query

/-- The name of the parameter with a number. -/
def parameterName (i : Nat) : String := "@p" ++ Text.ofNat i

/-- The text of some fragments whose first value has a number. -/
def write (d : Dialect) : Nat → List Fragment → String
  -- counts along with `collect`, which is all that keeps text and parameters together
  | _, [] => ""
  | i, .text s :: rest => s ++ write d i rest
  | i, .parameter _ :: rest => d.placeholder i ++ write d (i + 1) rest

/-- The parameters of some fragments whose first value has a number. -/
def collect : Nat → List Fragment → List Parameter
  | _, [] => []
  | i, .text _ :: rest => collect i rest
  | i, .parameter v :: rest => ⟨parameterName i, v⟩ :: collect (i + 1) rest

/-- The query that some fragments make.  Text and parameters are counted from the same
    number. -/
def ofFragments (d : Dialect) (fragments : List Fragment) : Query where
  sql := write d 0 fragments
  parameters := collect 0 fragments

/-- A query without parameters. -/
def plain (sql : String) : Query := { sql }

end Query

/-- A table name that has been given and is not empty.  Blanks would do. -/
def givenTable (table : Option String) (missing : Incomplete) : Except Incomplete String :=
  match table with
  | some t => if t = "" then .error missing else .ok t
  | none => .error missing

end Gridbase
