import Gridbase.Store.Database

/-! # Sessions

    A session is a database and the queries that have been sent to it.  An action
    changes the session and gives a result or a failure; what it changed before a
    failure stays changed. -/

namespace Gridbase

/-- A database and the queries sent to it, the first one first.  The log holds texts and
    parameters, also of queries that the database has refused. -/
structure Session where
  database : Database := {}
  sent : List Query := []

/-- A computation over a session that can fail. -/
abbrev Action (α : Type) := ExceptT Failure (StateM Session) α

namespace Session

/-- The result of a check or a computation that leaves the session alone.  A failure
    ends the action there. -/
def require {α : Type} (result : Except Failure α) : Action α :=
  match result with
  | .ok a => pure a
  | .error f => throw f

/-- A query that has been completed. -/
def prepared (query : Except Incomplete Query) : Action Query :=
  match query with
  | .ok q => pure q
  | .error cause => throw (.configuration cause)

/-- Notes a query as sent. -/
def note (q : Query) : Action Unit := modify fun s => { s with sent := s.sent ++ [q] }

/-- Sends a statement as a query; the count is that of the rows it touched.  A statement
    that fails leaves the database as it was. -/
def execute (s : Statement) (q : Query) : Action Nat := do
  -- noted first, so that a query that the database refuses counts as sent
  note q
  match (← get).database.execute s with
  | .ok (count, database) =>
      modify fun session => { session with database }
      return count
  | .error fault => throw fault.toFailure

/-- Sends a selection as a query.  It changes nothing but the log. -/
def fetch (s : Select) (q : Query) : Action (List Row) := do
  note q
  match (← get).database.select s with
  | .ok rows => return rows
  | .error fault => throw fault.toFailure

/-- Completes a statement and sends it.  Text and parameters come from the statement
    that the database carries out. -/
def send (s : Statement) : Action Nat := do execute s (← prepared (s.build .sqlite))

/-- Completes a selection and sends it. -/
def ask (s : Select) : Action (List Row) := do fetch s (← prepared (s.build .sqlite))

end Session

end Gridbase
