import Gridbase.Text

/-! # Quoted text

    A text between a pair of marks, with every closing mark inside it written
    twice: string literals and delimited identifiers. -/

namespace Gridbase.Text

/-- The text with every occurrence of a mark written twice, so that none of them ends
    it. -/
def doubleMark (mark : Char) : List Char → List Char
  | [] => []
  | c :: cs => if c = mark then mark :: mark :: doubleMark mark cs else c :: doubleMark mark cs

/-- The text between an opening and a closing mark.  Only the closing mark is written
    twice, since a reader looks for no other one inside. -/
def enclosed (opening closing : Char) (cs : List Char) : List Char :=
  opening :: doubleMark closing cs ++ [closing]

/-- The string between an opening and a closing mark. -/
def quoted (opening closing : Char) (s : String) : String :=
  String.ofList (enclosed opening closing s.toList)

end Gridbase.Text
