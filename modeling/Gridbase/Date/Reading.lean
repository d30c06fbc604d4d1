import Gridbase.Date
import Gridbase.Text

/-! # Reading dates

    A layout is a list of parts read one after the other.  Each number may be
    preceded by blanks; a year without a sign has at most four digits, month and
    day at most two; nothing may follow the last part. -/

namespace Gridbase.Date

/-- One part of a written date. -/
inductive Part
  | year
  | month
  | day
  | mark (c : Char)
  | gap
deriving DecidableEq

/-- The numbers read so far. -/
structure Fields where
  year : Int
  month : Nat
  day : Nat

/-- At least one ASCII digit and at most `limit` of them. -/
def number? (limit : Nat) (cs : List Char) : Option (Nat × List Char) :=
  let found := (cs.take limit).takeWhile Char.isDigit
  if found.isEmpty then none else some (Text.ofDigits found, cs.drop found.length)

/-- A year: up to four digits, or a sign and any number of digits.  Whether the
    calendar has the year is asked at the end. -/
def year? (cs : List Char) : Option (Int × List Char) :=
  match cs with
  | '-' :: rest => (number? rest.length rest).map fun r => (-(r.1 : Int), r.2)
  | '+' :: rest => (number? rest.length rest).map fun r => ((r.1 : Int), r.2)
  | _ => (number? 4 cs).map fun r => ((r.1 : Int), r.2)

/-- Reads one part off the front of the text.  Blanks before a number are skipped in
    every layout, before a mark only in a layout with gaps. -/
def Part.read? (fields : Fields) (cs : List Char) : Part → Option (Fields × List Char)
  | .year => (year? (Text.trimStart cs)).map fun r => ({ fields with year := r.1 }, r.2)
  | .month => (number? 2 (Text.trimStart cs)).map fun r => ({ fields with month := r.1 }, r.2)
  | .day => (number? 2 (Text.trimStart cs)).map fun r => ({ fields with day := r.1 }, r.2)
  | .mark c =>
      match cs with
      | d :: rest => if c = d then some (fields, rest) else none
      | [] => none
  | .gap => some (fields, Text.trimStart cs)

/-- Reads the parts in order, down to the end of the text. -/
def readFields? : List Part → Fields → List Char → Option Fields
  | [], fields, [] => some fields
  | [], _, _ :: _ => none
  | part :: parts, fields, cs =>
      match part.read? fields cs with
      | some (fields, rest) => readFields? parts fields rest
      | none => none

/-- The date written in a layout. -/
def read? (layout : List Part) (cs : List Char) : Option Date :=
  (readFields? layout ⟨0, 0, 0⟩ cs).bind fun f => ofCivil? f.year f.month f.day

/-- Year, month, day with slashes. -/
def slashed : List Part := [.year, .mark '/', .month, .mark '/', .day]

/-- Year, month, day with dashes. -/
def dashed : List Part := [.year, .mark '-', .month, .mark '-', .day]

/-- Month, day, year with slashes. -/
def monthFirst : List Part := [.month, .mark '/', .day, .mark '/', .year]

/-- Year, month, day with dashes and blanks between the parts. -/
def spaced : List Part :=
  [.year, .gap, .mark '-', .month, .gap, .mark '-', .day, .gap]

end Gridbase.Date
