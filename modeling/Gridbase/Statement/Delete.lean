import Gridbase.Statement.Condition

/-! # DELETE statements -/

namespace Gridbase

/-- The removal of the rows that meet the conditions, which are all rows if there are
    none. -/
structure Delete where
  table : Option String := none
  conditions : List Condition := []
deriving DecidableEq

namespace Delete

/-- Names the table. -/
def ofTable (s : Delete) (table : String) : Delete := { s with table := some table }

/-- Adds a condition at the end. -/
def condition (s : Delete) (c : Condition) : Delete := { s with conditions := s.conditions ++ [c] }

/-- The statement over a table. -/
def fragments (s : Delete) (table : String) : List Fragment :=
  .text ("DELETE FROM " ++ table) :: Condition.clause s.conditions ++ [.text ";"]

/-- The query, if there is a table.  Without conditions it removes every row, which
    the builder allows and the operations above it do not. -/
def build (d : Dialect) (s : Delete) : Except Incomplete Query := do
  let table ← givenTable s.table .missingTable
  return Query.ofFragments d (s.fragments table)

end Delete

end Gridbase
