import Gridbase.Text
import Gridbase.Value

/-! # Rows

    An ordered list of named values.  Names are compared without ASCII case, a
    name stands for one entry, and the entry keeps its first spelling and
    place. -/

namespace Gridbase

/-- A name and its value. -/
structure Entry where
  name : String
  value : Value
deriving DecidableEq

/-- Entries in the order their names were first used. -/
structure Row where
  entries : List Entry := []
deriving DecidableEq

namespace Row

/-- The row without entries. -/
def empty : Row := {}

instance : Inhabited Row := ⟨empty⟩

/-- Replaces the value of a name, or adds the name at the end.  The first spelling of a
    name stays, whatever the case of a later one. -/
def setEntry (name : String) (value : Value) : List Entry → List Entry
  | [] => [⟨name, value⟩]
  | e :: rest =>
      if Text.sameName e.name name then { e with value } :: rest
      else e :: setEntry name value rest

/-- The row with a value under a name. -/
def set (row : Row) (name : String) (value : Value) : Row :=
  ⟨setEntry name value row.entries⟩

/-- The row of the given entries, set one after the other. -/
def ofList (entries : List (String × Value)) : Row :=
  entries.foldl (fun row e => row.set e.1 e.2) empty

/-- The value under a name. -/
def get? (row : Row) (name : String) : Option Value :=
  (row.entries.find? fun e => Text.sameName e.name name).map Entry.value

/-- The row has a value under a name. -/
def contains (row : Row) (name : String) : Bool := (row.get? name).isSome

/-- The names in order. -/
def names (row : Row) : List String := row.entries.map Entry.name

/-- The number of entries. -/
def length (row : Row) : Nat := row.entries.length

/-- The row has no entry. -/
def isEmpty (row : Row) : Bool := row.entries.isEmpty

/-- Equal names in equal order with equal values.  Case counts here, unlike in the
    search for a name. -/
def equal (a b : Row) : Bool :=
  -- the lengths first, since `zip` stops at the shorter row
  a.length == b.length
    && (a.entries.zip b.entries).all fun p => p.1.name == p.2.name && p.1.value.equal p.2.value

end Row

end Gridbase
