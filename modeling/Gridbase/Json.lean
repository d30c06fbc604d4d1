import Gridbase.Binary64.Shortest
import Gridbase.Text.Digits

/-! # JSON values

    Values of data files and their two written forms, compact and indented.
    Numbers without point and exponent are integers, all others doubles;
    members keep their order. -/

namespace Gridbase

/-- A JSON value.  Integers are told from other numbers, and the members of an object
    keep their order. -/
inductive Json
  | null
  | bool (b : Bool)
  | integer (n : Int)
  | real (x : Binary64)
  | string (s : String)
  | array (items : List Json)
  | object (members : List (String × Json))

namespace Json

instance : Inhabited Json := ⟨.null⟩

/-! ## Texts -/

/-- A character inside a JSON string.  Only the marks of the notation and the control
    characters are escaped; all other characters stand for themselves. -/
def escape (c : Char) : List Char :=
  match c with
  | '"' => ['\\', '"']
  | '\\' => ['\\', '\\']
  | '\n' => ['\\', 'n']
  | '\r' => ['\\', 'r']
  | '\t' => ['\\', 't']
  | _ =>
      -- the two control characters with a short form and no literal of their own
      if c.toNat = 8 then ['\\', 'b']
      else if c.toNat = 12 then ['\\', 'f']
      else if c.toNat < 32 then
        ['\\', 'u', '0', '0'] ++ Text.lower (Text.hexByte (UInt8.ofNat c.toNat))
      else [c]

/-- A JSON string: its characters between quotes, those that need it escaped. -/
def stringText (s : String) : String :=
  String.ofList ('"' :: s.toList.flatMap escape ++ ['"'])

/-! ## Compact form -/

mutual

/-- The value without blanks, in one line. -/
def compact : Json → String
  | .null => "null"
  | .bool b => if b then "true" else "false"
  | .integer n => Text.ofInt n
  | .real x => x.dataText
  | .string s => stringText s
  | .array items => "[" ++ Text.joinWith "," (compactItems items) ++ "]"
  | .object members => "\x7b" ++ Text.joinWith "," (compactMembers members) ++ "\x7d"

/-- The items without blanks. -/
def compactItems : List Json → List String
  | [] => []
  | item :: rest => compact item :: compactItems rest

/-- The members without blanks. -/
def compactMembers : List (String × Json) → List String
  | [] => []
  | (name, value) :: rest => (stringText name ++ ":" ++ compact value) :: compactMembers rest

end

/-! ## Indented form -/

/-- A new line with an indentation. -/
def lineStart (depth : Nat) : String := "\n" ++ String.ofList (List.replicate (2 * depth) ' ')

/-- Lines between brackets; empty brackets stay on their line.  The closing bracket
    stands under the line that has the opening one. -/
def bracketed (opening closing : String) (depth : Nat) (lines : List String) : String :=
  if lines.isEmpty then opening ++ closing
  else
    opening ++ lineStart (depth + 1)
      ++ Text.joinWith ("," ++ lineStart (depth + 1)) lines ++ lineStart depth ++ closing

mutual

/-- The value over several lines, two blanks to a level.  Empty arrays and objects stay
    in one line. -/
def pretty (depth : Nat) : Json → String
  | .array items => bracketed "[" "]" depth (prettyItems (depth + 1) items)
  | .object members => bracketed "\x7b" "\x7d" depth (prettyMembers (depth + 1) members)
  | .null => "null"
  | .bool b => if b then "true" else "false"
  | .integer n => Text.ofInt n
  | .real x => x.dataText
  | .string s => stringText s

/-- The items of an array. -/
def prettyItems (depth : Nat) : List Json → List String
  | [] => []
  | item :: rest => pretty depth item :: prettyItems depth rest

/-- The members of an object. -/
def prettyMembers (depth : Nat) : List (String × Json) → List String
  | [] => []
  | (name, value) :: rest =>
      (stringText name ++ ": " ++ pretty depth value) :: prettyMembers depth rest

end

end Json

end Gridbase
