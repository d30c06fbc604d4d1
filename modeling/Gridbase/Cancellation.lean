import Gridbase.Failure

/-! # Cancellation

    Tokens share flags: a copy of a token observes what happens to the token it
    was copied from.  A long operation asks its token at fixed checks; `Watch`
    is the answers that it gets. -/

namespace Gridbase

/-! ## Tokens -/

/-- A number of tokens, each holding the index of its flag, and the flags that
    have been raised. -/
structure Tokens where
  flagOf : List Nat
  raised : List Nat := []

namespace Tokens

/-- One token with a flag of its own. -/
def single : Tokens := { flagOf := [0] }

/-- A flag that no token holds, greater than all that are held. -/
def freshFlag (t : Tokens) : Nat := t.flagOf.foldl (fun n f => max n (f + 1)) 0

/-- Adds a token with a flag of its own. -/
def new (t : Tokens) : Tokens := { t with flagOf := t.flagOf ++ [t.freshFlag] }

/-- Adds a copy of a token.  It shares the flag, so either of the two can raise it for
    both. -/
def clone (t : Tokens) (i : Nat) : Tokens :=
  match t.flagOf[i]? with
  | some flag => { t with flagOf := t.flagOf ++ [flag] }
  | none => t

/-- Raises the flag of a token, for all of its copies.  Nothing lowers it again. -/
def cancel (t : Tokens) (i : Nat) : Tokens :=
  match t.flagOf[i]? with
  | some flag => { t with raised := flag :: t.raised }
  | none => t

/-- A flag has been raised. -/
def isRaised (t : Tokens) (flag : Nat) : Bool := t.raised.contains flag

/-- The state of every token. -/
def states (t : Tokens) : List Bool := t.flagOf.map t.isRaised

end Tokens

/-- Goes on unless cancellation has been requested.  This is asked for at the start and
    between rows, never in the middle of one. -/
def checkpoint (requested : Bool) : Except Failure Unit :=
  if requested then .error .cancelled else .ok ()

/-! ## Watches -/

/-- What the checks of one operation observe: whether cancellation has been
    requested at the start, and before the row at each position.  Nothing is observed
    between these checks, so that a row is written whole or not at all. -/
structure Watch where
  atStart : Bool
  beforeRow : Nat → Bool

namespace Watch

/-- Cancellation is never requested. -/
def never : Watch := ⟨false, fun _ => false⟩

/-- Cancellation has been requested before the operation. -/
def always : Watch := ⟨true, fun _ => true⟩

/-- Cancellation is requested after the start and before any row. -/
def afterStart : Watch := ⟨false, fun _ => true⟩

end Watch

end Gridbase
