import Gridbase.Schema.Column
import Gridbase.Text.Digits

/-! # Reading table definitions

    The columns of a `CREATE TABLE` statement, whoever wrote it.  The text
    between the first opening and the last closing parenthesis is cut at the
    commas outside parentheses; each piece names a column, its declared type and
    its flags, or is a constraint of the table.  Text that is no statement has no
    columns. -/

namespace Gridbase.Schema

/-! ## Cutting -/

/-- The text between the first opening and the last closing parenthesis.  What stands
    behind the last one, such as an option of the table, does not count. -/
def between? (cs : List Char) : Option (List Char) :=
  match cs.dropWhile (· != '(') with
  | [] => none
  | _ :: body =>
      match body.reverse.dropWhile (· != ')') with
      | [] => none
      | _ :: inner => some inner.reverse

/-- The depth of parentheses after a character.  It may fall below zero, and then a
    comma cuts nothing until it is back. -/
def depthAfter (depth : Int) (c : Char) : Int :=
  if c = '(' then depth + 1 else if c = ')' then depth - 1 else depth

/-- Cuts the text at the commas of depth zero.  Quotes are not looked at, so that a
    comma or a parenthesis inside a literal counts like any other. -/
def splitTopLevel : Int → List Char → List (List Char)
  | _, [] => [[]]
  | depth, c :: cs =>
      if c = ',' && depth = 0 then [] :: splitTopLevel depth cs
      else
        match splitTopLevel (depthAfter depth c) cs with
        | [] => [[c]]
        | piece :: rest => (c :: piece) :: rest

/-! ## Names -/

/-- A mark that may enclose a name.  All of them are taken off, also where they do not
    match. -/
def isNameMark (c : Char) : Bool := c = '"' || c = '\x60' || c = '[' || c = ']'

/-- The name without enclosing marks. -/
def unquote (cs : List Char) : List Char :=
  ((cs.dropWhile isNameMark).reverse.dropWhile isNameMark).reverse

/-- The mark that closes what an opening mark begins. -/
def closingMark? : Char → Option Char
  | '"' => some '"'
  | '\x60' => some '\x60'
  | '[' => some ']'
  | _ => none

/-- A name up to the first blank. -/
def splitBareName (cs : List Char) : List Char × List Char :=
  (unquote (cs.takeWhile fun c => !Text.isBlank c), cs.dropWhile fun c => !Text.isBlank c)

/-- The name at the start of a piece and what follows it.  A name in closed
    marks may contain blanks. -/
def splitName (cs : List Char) : List Char × List Char :=
  match cs with
  | [] => ([], [])
  | c :: rest =>
      match closingMark? c with
      | none => splitBareName cs
      | some closing =>
          match rest.dropWhile (· != closing) with
          -- without a closing mark the opening one is part of a bare name
          | [] => splitBareName cs
          | _ :: after => (rest.takeWhile (· != closing), after)

/-- The names listed in parentheses. -/
def listedNames (cs : List Char) : List (List Char) :=
  match between? cs with
  | none => []
  | some inner =>
      ((Text.splitAt ',' inner).map fun n => unquote (Text.trim n)).filter (!·.isEmpty)

/-! ## Types -/

/-- The type at the start of the text: up to the parenthesis that closes its
    arguments, or up to a blank that no argument list follows. -/
def declaredType : Int → List Char → List Char
  | _, [] => []
  | depth, c :: cs =>
      -- nothing behind the arguments belongs to the type
      if c = ')' && depth - 1 = 0 then [c]
      else if Text.isBlank c && depth = 0 && !Text.startsWith ['('] (Text.trimStart cs) then []
      else c :: declaredType (depthAfter depth c) cs

/-- A 32-bit number, a plus sign allowed. -/
def argument? (cs : List Char) : Option Nat :=
  (Text.readNat? (Text.trim cs)).bind fun n => if n < 2 ^ 32 then some n else none

/-- The number as a byte, if it fits. -/
def byte? (n : Nat) : Option UInt8 := if n < 256 then some (UInt8.ofNat n) else none

/-- The numeric types, for which a single argument is a precision. -/
def isNumericBase (base : List Char) : Bool :=
  Text.startsWith "DECIMAL".toList base || Text.startsWith "NUMERIC".toList base

/-- The arguments of a declared type as text, without closing parentheses. -/
def argumentText (declared : List Char) : List Char :=
  match declared.dropWhile (· != '(') with
  | [] => []
  | _ :: args => Text.trim (args.reverse.dropWhile (· == ')')).reverse

/-- The column that a declared type such as `VARCHAR(50)` or `DECIMAL(10, 2)`
    gives, nullable and without a key. -/
def columnOfDeclared (name : List Char) (declaredText : List Char) : ColumnInfo :=
  let declared := Text.trim declaredText
  let base := Text.upper (Text.trim (declared.takeWhile (· != '(')))
  let column : ColumnInfo :=
    { name := String.ofList name, dataType := String.ofList base, isNullable := true }
  -- the arguments up to the first that is no number, and no more than two of them
  match (Text.splitAt ',' (argumentText declared)).map argument? with
  | some p :: some s :: _ => { column with precision := byte? p, scale := byte? s }
  | some n :: _ =>
      if isNumericBase base then { column with precision := byte? n, scale := some 0 }
      else { column with length := some (UInt32.ofNat n) }
  | _ => column

/-! ## Pieces -/

/-- The words that begin a constraint of the table. -/
def constraintWords : List (List Char) :=
  ["CONSTRAINT".toList, "PRIMARY".toList, "UNIQUE".toList, "CHECK".toList, "FOREIGN".toList]

/-- What a piece of the body is. -/
inductive Piece
  | column (info : ColumnInfo)
  | keys (names : List (List Char))
  | other
deriving DecidableEq

/-- A piece begins with a constraint word, which a parenthesis may follow at once. -/
def isConstraint (piece : List Char) : Bool :=
  constraintWords.contains
    ((Text.upper (piece.takeWhile fun c => !Text.isBlank c)).takeWhile (· != '('))

/-- The column that a piece defines. -/
def columnOfPiece (piece : List Char) : ColumnInfo :=
  let (name, rest) := splitName piece
  -- the flags are sought in everything behind the name, literals included
  let flags := Text.upper rest
  let isKey := Text.occursIn "PRIMARY KEY".toList flags
  { columnOfDeclared name (declaredType 0 (Text.trimStart rest)) with
    isPrimaryKey := isKey
    isNullable := !Text.occursIn "NOT NULL".toList flags && !isKey
    isAutoIncrementing := Text.occursIn "AUTOINCREMENT".toList flags }

/-- Reads one piece. -/
def readPiece (text : List Char) : Piece :=
  let piece := Text.trim text
  if piece.isEmpty then .other
  else if isConstraint piece then
    if Text.occursIn "PRIMARY KEY".toList (Text.upper piece) then .keys (listedNames piece)
    else .other
  else .column (columnOfPiece piece)

/-! ## Statements -/

/-- Makes the first column of a name a key. -/
def markKey (key : List Char) : List ColumnInfo → List ColumnInfo
  | [] => []
  | c :: rest =>
      if Text.sameFolded c.name.toList key then
        { c with isPrimaryKey := true, isNullable := false } :: rest
      else c :: markKey key rest

/-- The columns that some pieces define, with the keys that they list.  A constraint
    may stand before the columns it names, so that keys are marked at the end. -/
def columnsOfPieces (pieces : List Piece) : List ColumnInfo :=
  let columns := pieces.filterMap fun p =>
    match p with
    | .column info => some info
    | _ => none
  let keys := pieces.flatMap fun p =>
    match p with
    | .keys names => names
    | _ => []
  keys.foldl (fun columns key => markKey key columns) columns

/-- The columns of a statement. -/
def readColumns (sql : String) : List ColumnInfo :=
  match between? sql.toList with
  | none => []
  | some body => columnsOfPieces ((splitTopLevel 0 body).map readPiece)

end Gridbase.Schema
