import Gridbase.Statement
import Gridbase.Store.Fault

/-! # Words of statements

    The names in a statement stand bare in its text, one after the other, and each
    of them is a WORD to the database.  A keyword is a name nowhere; other words
    are refused at some places only: `CAST` and `RAISE` where an expression may
    begin, and `IF` where a table is made.

    Some words are accepted but stand for a value of their own: those for the
    clock wherever a column is read, and those for the row number and for truth
    values where no column has the name.  These values are left out here, and all
    of these words are read as columns. -/

namespace Gridbase

/-- Where a name stands in the text of a statement.  The same word may be read in one
    place and refused in another. -/
inductive Place
  /-- A table, or a column that is written. -/
  | name
  /-- A column that is read, with the token that stands behind it. -/
  | operand (next : String)
  /-- A table that is made, right after the words `CREATE TABLE`. -/
  | newTable
deriving DecidableEq

/-- A name in the text of a statement, at its place. -/
structure Word where
  text : String
  place : Place := .name
deriving DecidableEq

namespace Word

/-! ## Words that are no names -/

/-- The words that are never read as names.  All other keywords of the database may
    stand for a name at some places, or are reserved by the dialect. -/
def keywords : List String :=
  ["COLLATE", "COMMIT", "DEFERRABLE", "ESCAPE", "EXCEPT", "INTERSECT", "ISNULL", "LIMIT",
    "NOTHING", "NOTNULL", "RETURNING", "TRANSACTION", "USING"]

/-- The word is never read as a name. -/
def isKeyword (word : String) : Bool := keywords.any fun k => Text.sameName k word

/-- The words that begin an expression of their own kind. -/
def operators : List String := ["CAST", "RAISE"]

/-- The word begins an expression of its own kind. -/
def isOperator (word : String) : Bool := operators.any fun k => Text.sameName k word

/-- The word begins a condition on what is made. -/
def isCondition (word : String) : Bool := Text.sameName "IF" word

/-- The token at which the text is refused because of a word: a keyword itself, and
    behind a word that begins something else at its place, the token that does not
    go on with it. -/
def refusedAt? (w : Word) : Option String :=
  if isKeyword w.text then some w.text
  else
    match w.place with
    | .name => none
    | .operand next => if isOperator w.text then some next else none
    | .newTable => if isCondition w.text then some "(" else none

/-- Refuses a statement at the first of its words, in the order of its text, that is
    no name. -/
def check (words : List Word) : Except StoreFault Unit :=
  match words.findSome? refusedAt? with
  | some token => .error (.unexpected token)
  | none => .ok ()

/-! ## Words in their places -/

/-- Columns that are read one after the other.  A comma stands behind each of them,
    and some token behind the last one. -/
def listed (last : String) : List String → List Word
  | [] => []
  | [name] => [⟨name, .operand last⟩]
  | name :: next :: rest => ⟨name, .operand ","⟩ :: listed last (next :: rest)

/-- The column of a condition, before its operator. -/
def ofCondition (c : Condition) : Word := ⟨c.column, .operand c.operator.symbol⟩

/-- The column of an ordering, before its direction. -/
def ofOrder (o : OrderTerm) : Word := ⟨o.column, .operand o.direction.word⟩

end Word

/-! ## Words of statements -/

/-- The words of a selection.  Without columns the text has a star, which is no word.
    Columns are read before the table, as they stand before it. -/
def Select.words (s : Select) : List Word :=
  Word.listed "FROM" s.columns ++ ⟨s.table.getD "", .name⟩
    :: (s.conditions.map Word.ofCondition ++ s.order.map Word.ofOrder)

/-- The words of an insertion. -/
def Insert.words (s : Insert) : List Word :=
  ⟨s.table.getD "", .name⟩ :: s.columns.map fun name => ⟨name, .name⟩

/-- The words of an update: its table, the columns that are written, and those that are
    read. -/
def Update.words (s : Update) : List Word :=
  ⟨s.table.getD "", .name⟩
    :: (s.assignments.map (fun e => ⟨e.name, .name⟩) ++ s.conditions.map Word.ofCondition)

/-- The words of a removal. -/
def Delete.words (s : Delete) : List Word :=
  ⟨s.table.getD "", .name⟩ :: s.conditions.map Word.ofCondition

/-- The words of a statement that makes a table.  Its own condition stands before the
    name, if it has one. -/
def CreateTable.words (s : CreateTable) : List Word :=
  ⟨s.table.getD "", if s.ifNotExists then .name else .newTable⟩
    :: s.columns.map fun c => ⟨c.name, .name⟩

/-- The words of a statement.  The names of a design stand in quotes, so that they
    are no words. -/
def Statement.words : Statement → List Word
  | .insert s => s.words
  | .update s => s.words
  | .delete s => s.words
  | .createTable s => s.words
  | .createDesigned _ => []
  | .renameTable old new => [⟨old, .name⟩, ⟨new, .name⟩]
  | .dropTable name => [⟨name, .name⟩]

end Gridbase
