import Gridbase.Json

/-! # Records as JSON

    A record is an object with a member for each field, or an array of the
    fields in order.  Other members do not count, a field given twice is refused,
    and a field that is not given may have a default.  A variant is an object
    with a member that names it. -/

namespace Gridbase.Json

/-! ## Simple values -/

/-- A string. -/
def string? : Json → Option String
  | .string s => some s
  | _ => none

/-- A truth value. -/
def bool? : Json → Option Bool
  | .bool b => some b
  | _ => none

/-- An integer between two bounds, both included.  A number with a fraction is none,
    even if that is zero. -/
def integerWithin? (low high : Int) : Json → Option Int
  | .integer n => if low ≤ n ∧ n ≤ high then some n else none
  | _ => none

/-- An unsigned 8-bit integer. -/
def uint8? (j : Json) : Option UInt8 :=
  (integerWithin? 0 (2 ^ 8 - 1) j).map fun n => UInt8.ofNat n.toNat

/-- An unsigned 32-bit integer. -/
def uint32? (j : Json) : Option UInt32 :=
  (integerWithin? 0 (2 ^ 32 - 1) j).map fun n => UInt32.ofNat n.toNat

/-- A signed 64-bit integer. -/
def int64? (j : Json) : Option Int64 :=
  (integerWithin? (-2 ^ 63) (2 ^ 63 - 1) j).map Int64.ofInt

/-- A number, whole or not.  A whole one is rounded to the nearest double. -/
def number64? : Json → Option Binary64
  | .real x => some x
  | .integer n => some (Binary64.ofInt n)
  | _ => none

/-- The items of a list, all of one kind.  One that is not makes the list none. -/
def listOf? {α : Type} (item? : Json → Option α) : List Json → Option (List α)
  | [] => some []
  | j :: rest => do return (← item? j) :: (← listOf? item? rest)

/-- An array of items of one kind. -/
def array? {α : Type} (item? : Json → Option α) : Json → Option (List α)
  | .array items => listOf? item? items
  | _ => none

/-! ## Fields -/

/-- The members of a name, in order, however many there are. -/
def membersOf (name : String) (members : List (String × Json)) : List Json :=
  (members.filter fun m => m.1 == name).map Prod.snd

/-- The value of a field in an object, unless it is given twice.  The outer option is
    the refusal, the inner one the absence. -/
def memberField? (members : List (String × Json)) (name : String) : Option (Option Json) :=
  match membersOf name members with
  | [] => some none
  | [j] => some (some j)
  | _ => none

/-- The values of fields in an object. -/
def memberFields? (members : List (String × Json)) : List String → Option (List (Option Json))
  | [] => some []
  | name :: rest => do
      return (← memberField? members name) :: (← memberFields? members rest)

/-- The values of fields in an array, which has no items beyond them.  Fields at the end
    may be left out. -/
def itemFields? : List Json → List String → Option (List (Option Json))
  | [], [] => some []
  | _ :: _, [] => none
  | [], _ :: rest => (itemFields? [] rest).map (none :: ·)
  | j :: items, _ :: rest => (itemFields? items rest).map (some j :: ·)

/-- The values of the fields of a record, which may be an object or an array. -/
def fields? (names : List String) : Json → Option (List (Option Json))
  | .object members => memberFields? members names
  | .array items => itemFields? items names
  | _ => none

/-- A field that has to be given. -/
def required {α : Type} (value? : Json → Option α) (field : Option Json) : Option α :=
  field.bind value?

/-- A field that has a default.  The default is for an absent field only: a null is
    read like any other value. -/
def withDefault {α : Type} (preset : α) (value? : Json → Option α) : Option Json → Option α
  | none => some preset
  | some j => value? j

/-- A field that may be absent or null. -/
def optional {α : Type} (value? : Json → Option α) : Option Json → Option (Option α)
  | none => some none
  | some .null => some none
  | some j => (value? j).map some

/-! ## Variants -/

/-- The name of a variant and the JSON of its fields: the other members of an
    object, or the other items of an array. -/
def variant? (tag : String) : Json → Option (String × Json)
  | .object members =>
      -- the tag may stand anywhere among the members, but once only
      match membersOf tag members with
      | [.string name] => some (name, .object (members.filter fun m => m.1 != tag))
      | _ => none
  | .array (.string name :: items) => some (name, .array items)
  | _ => none

/-- The name of a constant: a string, or an object with this one member, which is
    null. -/
def constant? : Json → Option String
  | .string s => some s
  | .object [(name, .null)] => some name
  | _ => none

/-! ## Encoding -/

/-- A member for an optional field; none when it is absent. -/
def optionalMember {α : Type} (name : String) (toJson : α → Json) (value : Option α) :
    List (String × Json) :=
  match value with
  | some a => [(name, toJson a)]
  | none => []

/-- A member for a list; none when it is empty. -/
def listMember {α : Type} (name : String) (toJson : α → Json) (items : List α) :
    List (String × Json) :=
  if items.isEmpty then [] else [(name, .array (items.map toJson))]

/-- An unsigned integer. -/
def ofNat (n : Nat) : Json := .integer n

end Gridbase.Json
