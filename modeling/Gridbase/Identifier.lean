import Gridbase.Text

/-! # Identifiers

    The names that may stand in a statement without quotes: letters, digits and
    underscores, no digit first, at most 128 of them, and no reserved word. -/

namespace Gridbase.Identifier

/-- The greatest length of an identifier. -/
def maxLength : Nat := 128

/-- The words that no dialect accepts as a name.  The list is shorter than that of any
    database: what it leaves out is refused, if at all, by the database itself. -/
def reservedWords : List String :=
  ["ADD", "ALL", "ALTER", "AND", "AS", "ASC", "BETWEEN", "BY", "CASE", "CHECK", "COLUMN",
    "CONSTRAINT", "CREATE", "CROSS", "DEFAULT", "DELETE", "DESC", "DISTINCT", "DROP", "ELSE",
    "END", "EXISTS", "FOREIGN", "FROM", "FULL", "GRANT", "GROUP", "HAVING", "IN", "INDEX",
    "INNER", "INSERT", "INTO", "IS", "JOIN", "KEY", "LEFT", "LIKE", "NOT", "NULL", "ON", "OR",
    "ORDER", "OUTER", "PRIMARY", "REFERENCES", "RIGHT", "SELECT", "SET", "TABLE", "THEN", "TO",
    "UNION", "UNIQUE", "UPDATE", "VALUES", "WHEN", "WHERE"]

/-- A letter or an underscore. -/
def isHead (c : Char) : Bool := c.isAlpha || c = '_'

/-- A letter, a digit or an underscore. -/
def isBody (c : Char) : Bool := c.isAlphanum || c = '_'

/-- A head followed by body characters, not too long.  All of them are ASCII, so that
    characters and bytes count alike. -/
def hasShape (name : String) : Bool :=
  match name.toList with
  | [] => false
  -- the head counts too, hence a strict bound for what follows it
  | c :: cs => isHead c && cs.all isBody && cs.length < maxLength

/-- A word reserved by every dialect or by the extra list, in any case. -/
def isReserved (extra : List String) (name : String) : Bool :=
  (reservedWords ++ extra).any fun word => Text.sameName word name

/-- A name that may stand in a statement without quotes.  This is what the checks take
    for a name; a database may know more words. -/
def isValid (extra : List String) (name : String) : Bool :=
  hasShape name && !isReserved extra name

end Gridbase.Identifier
