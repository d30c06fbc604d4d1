import Gridbase.Statement.Condition

/-! # SELECT statements -/

namespace Gridbase

/-- The direction of an ordering. -/
inductive Direction
  | ascending
  | descending
deriving DecidableEq

/-- The word for a direction. -/
def Direction.word : Direction → String
  | .ascending => "ASC"
  | .descending => "DESC"

/-- One term of an ordering. -/
structure OrderTerm where
  column : String
  direction : Direction := .ascending
deriving DecidableEq

/-- The term as written. -/
def OrderTerm.text (t : OrderTerm) : String := t.column ++ " " ++ t.direction.word

/-- A selection of rows of one table; no columns mean all of them. -/
structure Select where
  table : Option String := none
  columns : List String := []
  conditions : List Condition := []
  order : List OrderTerm := []
deriving DecidableEq

namespace Select

/-! ## Clauses -/

/-- Names the table. -/
def ofTable (s : Select) (table : String) : Select := { s with table := some table }

/-- Lists the columns, in place of an earlier list.  Conditions and orderings add up
    instead. -/
def only (s : Select) (columns : List String) : Select := { s with columns }

/-- Adds a condition at the end. -/
def condition (s : Select) (c : Condition) : Select := { s with conditions := s.conditions ++ [c] }

/-- Adds an ordering term at the end. -/
def orderBy (s : Select) (column : String) (direction : Direction) : Select :=
  { s with order := s.order ++ [⟨column, direction⟩] }

/-! ## The statement -/

/-- The column list as written. -/
def columnText (s : Select) : String :=
  if s.columns.isEmpty then "*" else Text.joinWith ", " s.columns

/-- The ORDER BY clause; nothing without terms. -/
def orderText (s : Select) : String :=
  if s.order.isEmpty then "" else " ORDER BY " ++ Text.joinWith ", " (s.order.map OrderTerm.text)

/-- The statement over a table. -/
def fragments (s : Select) (table : String) : List Fragment :=
  .text ("SELECT " ++ s.columnText ++ " FROM " ++ table)
    :: Condition.clause s.conditions ++ [.text (s.orderText ++ ";")]

/-- The query, if a table has been named.  Everything else may be left out. -/
def build (d : Dialect) (s : Select) : Except Incomplete Query := do
  let table ← givenTable s.table .missingFrom
  return Query.ofFragments d (s.fragments table)

end Select

end Gridbase
