import Gridbase.Row
import Gridbase.Statement.Condition

/-! # UPDATE statements -/

namespace Gridbase

/-- New values for the rows that meet the conditions, which are all rows if there are
    none. -/
structure Update where
  table : Option String := none
  assignments : List Entry := []
  conditions : List Condition := []
deriving DecidableEq

namespace Update

/-! ## Clauses -/

/-- Names the table. -/
def ofTable (s : Update) (table : String) : Update := { s with table := some table }

/-- Adds an assignment at the end. -/
def assign (s : Update) (column : String) (value : Value) : Update :=
  { s with assignments := s.assignments ++ [⟨column, value⟩] }

/-- Adds an assignment for each entry of a row. -/
def row (s : Update) (r : Row) : Update := { s with assignments := s.assignments ++ r.entries }

/-- Adds a condition at the end. -/
def condition (s : Update) (c : Condition) : Update := { s with conditions := s.conditions ++ [c] }

/-! ## The statement -/

/-- An assignment after the words that lead to it. -/
def assignment (lead : String) (e : Entry) : List Fragment :=
  [.text (lead ++ e.name ++ " = "), .parameter e.value]

/-- The SET clause. -/
def setClause : List Entry → List Fragment
  | [] => []
  | e :: rest => assignment " SET " e ++ rest.flatMap (assignment ", ")

/-- The statement over a table. -/
def fragments (s : Update) (table : String) : List Fragment :=
  .text ("UPDATE " ++ table)
    :: setClause s.assignments ++ Condition.clause s.conditions ++ [.text ";"]

/-- The query, if there is a table and an assignment.  Values are numbered in the order
    of the text: those assigned come before those compared with. -/
def build (d : Dialect) (s : Update) : Except Incomplete Query := do
  let table ← givenTable s.table .missingTable
  if s.assignments.isEmpty then throw .noAssignments
  return Query.ofFragments d (s.fragments table)

end Update

end Gridbase
