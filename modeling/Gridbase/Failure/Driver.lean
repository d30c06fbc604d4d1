import Gridbase.Failure
import Gridbase.Text

/-! # Driver errors

    What a database driver reports, and the failure it stands for: a missing
    table is not found, a broken uniqueness or a taken name is a conflict, and
    all else is a storage failure, transient or not. -/

namespace Gridbase

/-- An error reported by a database driver.  Those of the database itself have a
    message, and may have a code. -/
inductive DriverError
  | rowNotFound
  | database (message : String) (code : Option String) (uniqueViolation : Bool)
  | io (message : String)
  | poolTimedOut
  | poolClosed
  | workerCrashed
  | protocol (detail : String)
  | columnNotFound (name : String)
deriving DecidableEq

namespace DriverError

/-- The result codes for a busy and for a locked database.  These are the primary codes
    only, as the texts in which the driver gives them. -/
def transientCodes : List String := ["5", "6"]

/-- The database was busy or locked, by its code or by its message.  Codes are compared
    as texts, with the two primary ones. -/
def isBusy (message : String) (code : Option String) : Bool :=
  let folded := Text.lower message.toList
  code.any (fun c => transientCodes.contains c)
    || Text.occursIn "database is locked".toList folded
    || Text.occursIn "database is busy".toList folded

/-- A table of the statement does not exist, by the words of the message. -/
def namesMissingTable (message : String) : Bool :=
  Text.occursIn "no such table".toList (Text.lower message.toList)

/-- A key or a name is taken already, by the words of the message. -/
def namesConflict (message : String) : Bool :=
  let folded := Text.lower message.toList
  Text.occursIn "unique constraint failed".toList folded
    || Text.occursIn "already exists".toList folded
    || Text.occursIn "already another".toList folded

/-- The failure that a driver error stands for, with the driver's message. -/
def toFailure : DriverError → Failure
  | .rowNotFound => .notFound "Row not found."
  | .database message code uniqueViolation =>
      -- the message decides before the code: a missing table is never transient
      if namesMissingTable message then .notFound message
      else if uniqueViolation || namesConflict message then .conflict message
      else .storage message (isBusy message code)
  | .io message => .storage message true
  | .poolTimedOut => .storage "pool timed out while waiting for an open connection" true
  | .poolClosed => .storage "attempted to acquire a connection on a closed pool" true
  | .workerCrashed =>
      .storage "attempted to communicate with a crashed background worker" true
  | .protocol detail =>
      .storage ("encountered unexpected or invalid data: " ++ detail) false
  | .columnNotFound name => .storage ("no column found for name: " ++ name) false

end DriverError

end Gridbase
