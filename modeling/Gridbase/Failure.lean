import Gridbase.Text.Digits

/-! # Failures

    The causes for which an operation can fail, their classification and their
    messages. -/

namespace Gridbase

/-- A statement was completed without a part that it needs.  Such a statement is never
    sent. -/
inductive Incomplete
  | missingFrom
  | missingTable
  | noAssignments
  | noColumns
  | unnamedColumn
  | columnValueMismatch (columns values : Nat)
deriving DecidableEq

/-- What is missing. -/
def Incomplete.message : Incomplete → String
  | .missingFrom => "FROM table not specified"
  | .missingTable => "table not specified"
  | .noAssignments => "no SET clauses specified"
  | .noColumns => "no columns specified for CREATE TABLE"
  | .unnamedColumn => "column name must be provided"
  | .columnValueMismatch columns values =>
      "number of columns (" ++ Text.ofNat columns ++ ") and values (" ++ Text.ofNat values
        ++ ") must match"

/-- Why an operation failed.  Faults of the database are told apart by their messages.
    -/
inductive Failure
  | configuration (cause : Incomplete)
  | validation (messages : List String)
  | notFound (message : String)
  | conflict (message : String)
  | storage (message : String) (transient : Bool)
  | cancelled
  | unsupportedType (name : String)
deriving DecidableEq

/-- The classes of failures.  A caller that only wants to know how to react looks at
    the class and not at the cause. -/
inductive FailureKind
  | validation
  | notFound
  | conflict
  | internal
  | cancelled
  | configuration
deriving DecidableEq

namespace Failure

/-- A validation failure with a single message. -/
def invalid (message : String) : Failure := .validation [message]

/-- The class of a failure, as callers see it.  A type that is unknown counts as invalid
    input. -/
def kind : Failure → FailureKind
  | .configuration _ => .configuration
  | .validation _ => .validation
  | .unsupportedType _ => .validation
  | .notFound _ => .notFound
  | .conflict _ => .conflict
  | .storage .. => .internal
  | .cancelled => .cancelled

/-- The failure in one line. -/
def message : Failure → String
  | .configuration cause => "configuration error: " ++ cause.message
  | .validation messages => "validation failed: " ++ Text.joinWith "; " messages
  | .notFound m => "not found: " ++ m
  | .conflict m => "conflict: " ++ m
  | .storage m _ => "storage error: " ++ m
  | .cancelled => "operation was cancelled"
  | .unsupportedType name => "unsupported column type: " ++ name

/-- The messages in the order they arose.  Only a validation has several, and it gives
    them without the words that lead its line. -/
def messages : Failure → List String
  | .validation list => list
  | other => [other.message]

/-- Trying again may succeed.  Only a failure of the storage can be of this kind. -/
def isTransient : Failure → Bool
  | .storage _ transient => transient
  | _ => false

end Failure

end Gridbase
