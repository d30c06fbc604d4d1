import Gridbase.Json
import Gridbase.Text.Digits

/-! # Reading JSON

    A text is one JSON value with blanks around it.  Values nest at most 127
    deep.  A number with a point or an exponent, or beyond 64 bits, is a double:
    its significand is rounded first and then scaled by powers of ten. -/

namespace Gridbase.Json

/-! ## Blanks -/

/-- The blanks between tokens. -/
def isGap (c : Char) : Bool := c = ' ' || c = '\n' || c = '\t' || c = '\r'

/-- The text after leading blanks. -/
def skipGap (cs : List Char) : List Char := cs.dropWhile isGap

/-- The text after a word. -/
def afterWord? (word : String) (cs : List Char) : Option (List Char) :=
  if Text.startsWith word.toList cs then some (cs.drop word.length) else none

/-! ## Numbers -/

/-- The digits that 64 bits hold, taken from the front, and how many are left.  From the
    first digit that does not fit, digits count as zeros. -/
def significand : Nat → List Char → Nat × Nat
  | n, [] => (n, 0)
  | n, c :: cs =>
      let next := 10 * n + Text.digitValue c
      if next < 2 ^ 64 then significand next cs else (n, cs.length + 1)

/-- The double nearest to a power of ten. -/
def powerOfTen (n : Nat) : Binary64 := Binary64.ofInt (10 ^ n)

/-- Divides by powers of ten, at most `10 ^ 308` at a time.  Each step rounds, so this
    need not be the nearest double to the quotient. -/
def scaleDown : Nat → Binary64 → Nat → Binary64
  | 0, x, _ => x
  | fuel + 1, x, n =>
      -- no power of ten beyond this one is a double
      if n ≤ 308 then x.div (powerOfTen n)
      else if x.magnitude = 0 then x
      else scaleDown fuel (x.div (powerOfTen 308)) (n - 308)

/-- The significand times a power of ten; nothing beyond the largest double.  A
    significand that is scaled down ends at zero, and is never refused. -/
def scaled? (m : Nat) (exponent : Int) : Option Binary64 :=
  let x := Binary64.ofInt m
  if exponent < 0 then some (scaleDown 4 x (-exponent).toNat)
  else if m = 0 then some x
  else if 308 < exponent then none
  else
    let y := x.mul (powerOfTen exponent.toNat)
    if y.isFinite then some y else none

/-- The double with its sign turned. -/
def negated (neg : Bool) (x : Binary64) : Binary64 :=
  if neg then Binary64.ofParts true x.absBits else x

/-- The parts of a written number, as texts.  A number with a fraction or an exponent is
    no integer, whatever its value. -/
structure NumberParts where
  whole : List Char
  fraction : List Char := []
  exponent : Int := 0
  isInteger : Bool := true

/-- The value of a written number. -/
def NumberParts.value? (neg : Bool) (p : NumberParts) : Option Json :=
  let (m, left) := significand 0 (p.whole ++ p.fraction)
  -- minus zero is no integer here, as it would lose its sign
  if p.isInteger && left = 0 && (if neg then 0 < m && m ≤ 2 ^ 63 else true) then
    some (.integer (if neg then -(m : Int) else m))
  else
    (scaled? m (p.exponent + left - p.fraction.length)).map fun x => .real (negated neg x)

/-- An exponent, if there is one: its mark, an optional sign, and digits. -/
def exponentPart? (p : NumberParts) (cs : List Char) : Option (NumberParts × List Char) :=
  match cs with
  | c :: rest =>
      if c = 'e' || c = 'E' then
        let (neg, body) :=
          match rest with
          | '-' :: more => (true, more)
          | '+' :: more => (false, more)
          | _ => (false, rest)
        let digits := body.takeWhile Char.isDigit
        if digits.isEmpty then none
        else
          let e : Int := Text.ofDigits digits
          some ({ p with exponent := if neg then -e else e, isInteger := false },
            body.dropWhile Char.isDigit)
      else some (p, cs)
  | [] => some (p, cs)

/-- A fraction, if there is one: a point and at least one digit. -/
def fractionPart? (p : NumberParts) (cs : List Char) : Option (NumberParts × List Char) :=
  match cs with
  | '.' :: rest =>
      let digits := rest.takeWhile Char.isDigit
      if digits.isEmpty then none
      else some ({ p with fraction := digits, isInteger := false }, rest.dropWhile Char.isDigit)
  | _ => some (p, cs)

/-- The digits before the point; a zero stands alone, since a number has no leading
    zeros. -/
def wholePart? (cs : List Char) : Option (NumberParts × List Char) :=
  match cs with
  | '0' :: rest =>
      if rest.head?.any Char.isDigit then none else some ({ whole := ['0'] }, rest)
  | _ =>
      let digits := cs.takeWhile Char.isDigit
      if digits.isEmpty then none else some ({ whole := digits }, cs.dropWhile Char.isDigit)

/-- A number without its sign. -/
def unsignedNumber? (neg : Bool) (cs : List Char) : Option (Json × List Char) := do
  let (p, rest) ← wholePart? cs
  let (p, rest) ← fractionPart? p rest
  let (p, rest) ← exponentPart? p rest
  return (← p.value? neg, rest)

/-- A number, and the text after it.  There is no plus sign. -/
def number? (cs : List Char) : Option (Json × List Char) :=
  match cs with
  | '-' :: rest => unsignedNumber? true rest
  | _ => unsignedNumber? false cs

/-! ## Strings -/

/-- Four hexadecimal digits. -/
def hexUnit? (cs : List Char) : Option (Nat × List Char) :=
  match cs with
  | a :: b :: c :: d :: rest => do
      let a ← Text.hexValue? a
      let b ← Text.hexValue? b
      let c ← Text.hexValue? c
      let d ← Text.hexValue? d
      return (((a * 16 + b) * 16 + c) * 16 + d, rest)
  | _ => none

/-- A character written by its number: one unit, or a pair of surrogates. -/
def escapedUnit? (cs : List Char) : Option (Char × List Char) := do
  let (high, rest) ← hexUnit? cs
  -- the first half of a pair is nothing without the second one
  if 0xD800 ≤ high && high < 0xDC00 then
    match rest with
    | '\\' :: 'u' :: more =>
        let (low, rest) ← hexUnit? more
        if 0xDC00 ≤ low && low < 0xE000 then
          return (Char.ofNat (0x10000 + (high - 0xD800) * 0x400 + (low - 0xDC00)), rest)
        else none
    | _ => none
  else if 0xDC00 ≤ high && high < 0xE000 then none
  else return (Char.ofNat high, rest)

/-- The character that a backslash and a letter stand for. -/
def escapedChar? : Char → Option Char
  | '"' => some '"'
  | '\\' => some '\\'
  | '/' => some '/'
  | 'b' => some (Char.ofNat 8)
  | 'f' => some (Char.ofNat 12)
  | 'n' => some '\n'
  | 'r' => some '\r'
  | 't' => some '\t'
  | _ => none

/-- The rest of a string after its opening mark, gathered in reverse.  Every step takes
    a character, so that the length of the text is fuel enough. -/
def stringBody? : Nat → List Char → List Char → Option (String × List Char)
  | 0, _, _ => none
  | _ + 1, _, [] => none
  | _ + 1, acc, '"' :: rest => some (String.ofList acc.reverse, rest)
  | fuel + 1, acc, '\\' :: 'u' :: rest =>
      match escapedUnit? rest with
      | some (c, rest) => stringBody? fuel (c :: acc) rest
      | none => none
  | fuel + 1, acc, '\\' :: e :: rest =>
      match escapedChar? e with
      | some c => stringBody? fuel (c :: acc) rest
      | none => none
  | fuel + 1, acc, c :: rest =>
      if c = '\\' || c.toNat < 32 then none else stringBody? fuel (c :: acc) rest

/-! ## Values -/

mutual

/-- A value at the start of the text.  The fuel bounds the steps and is more than
    the length of the text; the depth bounds the nesting. -/
def value? : Nat → Nat → List Char → Option (Json × List Char)
  | 0, _, _ => none
  | fuel + 1, depth, cs =>
      match cs with
      | 'n' :: _ => (afterWord? "null" cs).map fun rest => (.null, rest)
      | 't' :: _ => (afterWord? "true" cs).map fun rest => (.bool true, rest)
      | 'f' :: _ => (afterWord? "false" cs).map fun rest => (.bool false, rest)
      | '"' :: rest => (stringBody? (rest.length + 1) [] rest).map fun r => (.string r.1, r.2)
      | '[' :: rest =>
          match depth, skipGap rest with
          -- an empty array takes a level as well
          | 0, _ => none
          | _ + 1, ']' :: rest => some (.array [], rest)
          | depth + 1, rest => (items? fuel depth [] rest).map fun r => (.array r.1, r.2)
      | '\x7b' :: rest =>
          match depth, skipGap rest with
          | 0, _ => none
          | _ + 1, '\x7d' :: rest => some (.object [], rest)
          | depth + 1, rest => (members? fuel depth [] rest).map fun r => (.object r.1, r.2)
      | _ => number? cs

/-- The items of an array up to its end, gathered in reverse.  The closing mark is taken
    along with them. -/
def items? : Nat → Nat → List Json → List Char → Option (List Json × List Char)
  | 0, _, _, _ => none
  | fuel + 1, depth, acc, cs =>
      match value? fuel depth cs with
      | none => none
      | some (item, rest) =>
          match skipGap rest with
          | ',' :: rest => items? fuel depth (item :: acc) (skipGap rest)
          | ']' :: rest => some ((item :: acc).reverse, rest)
          | _ => none

/-- The members of an object up to its end, gathered in reverse.  A name may come twice;
    who reads the record decides about that. -/
def members? : Nat → Nat → List (String × Json) → List Char →
    Option (List (String × Json) × List Char)
  | 0, _, _, _ => none
  | fuel + 1, depth, acc, cs =>
      match cs with
      | '"' :: rest =>
          match stringBody? (rest.length + 1) [] rest with
          | none => none
          | some (name, rest) =>
              match skipGap rest with
              | ':' :: rest =>
                  match value? fuel depth (skipGap rest) with
                  | none => none
                  | some (value, rest) =>
                      match skipGap rest with
                      | ',' :: rest => members? fuel depth ((name, value) :: acc) (skipGap rest)
                      | '\x7d' :: rest => some (((name, value) :: acc).reverse, rest)
                      | _ => none
              | _ => none
      | _ => none

end

/-- The deepest nesting. -/
def maxDepth : Nat := 127

/-- The value that a text holds, with gaps around it and nothing else. -/
def parse? (s : String) : Option Json :=
  let cs := s.toList
  match value? (cs.length + 1) maxDepth (skipGap cs) with
  | some (j, rest) => if (skipGap rest).isEmpty then some j else none
  | none => none

end Gridbase.Json
