/-! # Text

    Blank characters, trimming, ASCII case folding and substring search, all
    over lists of characters so that every rule is a structural recursion.
    The `String` wrappers below them only convert. -/

namespace Gridbase.Text

/-! ## Blanks -/

/-- The characters with the Unicode property White_Space.  The zero-width space and
    the byte order mark do not have it, so that a text of them alone is not blank. -/
def isBlank (c : Char) : Bool :=
  let n := c.toNat
  -- tab to carriage return, the blank, next line, no-break space, and the wide ones
  (0x09 ≤ n && n ≤ 0x0D) || n == 0x20 || n == 0x85 || n == 0xA0 || n == 0x1680
    || (0x2000 ≤ n && n ≤ 0x200A) || n == 0x2028 || n == 0x2029 || n == 0x202F
    || n == 0x205F || n == 0x3000

/-- The text without its leading blanks. -/
def trimStart (cs : List Char) : List Char := cs.dropWhile isBlank

/-- The text without its trailing blanks. -/
def trimEnd (cs : List Char) : List Char := (cs.reverse.dropWhile isBlank).reverse

/-- The text without leading and trailing blanks. -/
def trim (cs : List Char) : List Char := trimEnd (trimStart cs)

/-- The string without leading and trailing blanks. -/
def trimmed (s : String) : String := String.ofList (trim s.toList)

/-- A string of blanks only, the empty string included. -/
def allBlank (s : String) : Bool := s.toList.all isBlank

/-! ## ASCII case -/

/-- Lower case of the ASCII letters; all else stays, accented letters included, so
    that folding keeps the length of a text. -/
def lower (cs : List Char) : List Char := cs.map Char.toLower

/-- Upper case of the ASCII letters; all else stays. -/
def upper (cs : List Char) : List Char := cs.map Char.toUpper

/-- Two texts that differ in the case of ASCII letters only. -/
def sameFolded (a b : List Char) : Bool := lower a == lower b

/-- Two names that differ in the case of ASCII letters only. -/
def sameName (a b : String) : Bool := sameFolded a.toList b.toList

/-! ## Parts of a text -/

/-- The needle occurs in the text, at its start or further in.  The empty needle occurs
    everywhere. -/
def occursIn (needle : List Char) : List Char → Bool
  | [] => needle.isEmpty
  | c :: cs => needle.isPrefixOf (c :: cs) || occursIn needle cs

/-- The text begins with the given head. -/
def startsWith (head cs : List Char) : Bool := head.isPrefixOf cs

/-- The pieces between the separators, at least one: a separator at either end has
    an empty piece beside it. -/
def splitAt (sep : Char) : List Char → List (List Char)
  | [] => [[]]
  | c :: cs =>
      match splitAt sep cs with
      -- never taken: a text always has a first piece
      | [] => [[]]
      | piece :: rest =>
          if c = sep then [] :: piece :: rest else (c :: piece) :: rest

/-- The strings joined with a separator between neighbours. -/
def joinWith (sep : String) : List String → String
  | [] => ""
  | [s] => s
  | s :: t :: rest => s ++ sep ++ joinWith sep (t :: rest)

end Gridbase.Text
