import Gridbase.Statement.Query

/-! # Conditions

    Comparisons of a column with a value, chained by AND and OR from left to
    right without grouping. -/

namespace Gridbase

/-- The comparisons of a condition. -/
inductive Operator
  | eq
  | ne
  | lt
  | le
  | gt
  | ge
  | like
deriving DecidableEq

namespace Operator

/-- The operator as written. -/
def symbol : Operator → String
  | .eq => "="
  | .ne => "<>"
  | .lt => "<"
  | .le => "<="
  | .gt => ">"
  | .ge => ">="
  | .like => "LIKE"

/-- The texts that mean an operator. -/
def spellings : Operator → List String
  | .eq => ["=", "=="]
  | .ne => ["<>", "!="]
  | .lt => ["<"]
  | .le => ["<="]
  | .gt => [">"]
  | .ge => [">="]
  | .like => ["LIKE"]

/-- All operators. -/
def all : List Operator := [.eq, .ne, .lt, .le, .gt, .ge, .like]

/-- The operator that a text means, surrounding blanks and case aside.  Only the
    texts listed above are accepted, so that no text of a caller is written out. -/
def parse (s : String) : Except Failure Operator :=
  let folded := String.ofList (Text.upper (Text.trim s.toList))
  match all.find? fun op => op.spellings.contains folded with
  | some op => .ok op
  | none => .error (.invalid ("Unsupported operator '" ++ s ++ "'."))

end Operator

/-- How a condition joins the ones before it.  That of the first condition has no
    effect.  -/
inductive Connector
  | and
  | or
deriving DecidableEq

/-- The word between two conditions. -/
def Connector.word : Connector → String
  | .and => " AND "
  | .or => " OR "

/-- A comparison and how it joins the ones before it; the first one joins
    nothing. -/
structure Condition where
  connector : Connector
  column : String
  operator : Operator
  value : Value
deriving DecidableEq

namespace Condition

/-- A condition after the words that lead to it. -/
def fragments (lead : String) (c : Condition) : List Fragment :=
  [.text (lead ++ c.column ++ " " ++ c.operator.symbol ++ " "), .parameter c.value]

/-- The conditions after the first, each with its connector. -/
def restFragments : List Condition → List Fragment
  | [] => []
  | c :: rest => c.fragments c.connector.word ++ restFragments rest

/-- The WHERE clause; nothing without conditions.  There are no parentheses, so AND
    binds more tightly than OR. -/
def clause : List Condition → List Fragment
  | [] => []
  -- the connector of the first condition is not written
  | c :: rest => c.fragments " WHERE " ++ restFragments rest

end Condition

end Gridbase
