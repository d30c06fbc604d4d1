import Gridbase.Binary64
import Gridbase.Moment

/-! # Spreadsheet serial dates

    A serial counts days from 30 December 1899; its fraction is the time of day,
    which moves forward from midnight also for a negative serial.  The number of
    milliseconds is the serial times the length of a day, moved half a
    millisecond away from zero and rounded once, and then truncated. -/

namespace Gridbase.Moment

/-- The day that serial zero stands for. -/
def serialEpoch : Date := { year := 1899, month := 12, day := 30 }

/-- The serials below the first one that spreadsheets accept. -/
def serialFloor : Int := -657435

/-- The first serial after the year 9999. -/
def serialCeiling : Int := 2958466

/-- A finite serial strictly between the floor and the ceiling. -/
def isSerial (s : Binary64) : Bool :=
  s.isFinite && serialFloor * 2 ^ 1074 < s.units && s.units < serialCeiling * 2 ^ 1074

/-- Milliseconds that a serial stands for, counted in its own direction.  Product and
    half are added before anything is rounded, as one fused step. -/
def serialMillis (s : Binary64) : Int :=
  -- half a millisecond in units, away from zero
  let half : Int := if 0 ≤ s.units then 2 ^ 1073 else -2 ^ 1073
  (Binary64.ofUnits (s.units * millisPerDay + half)).truncate

/-- Turns the time of day of a negative count forward from midnight: the fraction of
    -1.25 is six in the morning of the day before the epoch, not six in the evening of
    the day before that. -/
def forwardMillis (millis : Int) : Int :=
  -- the remainder has the sign of the count, so that taking it off twice mirrors it
  if millis < 0 then millis - Int.tmod millis millisPerDay * 2 else millis

/-- The moment that a serial stands for.  The bounds are those of the serial as it
    stands, before its milliseconds are rounded. -/
def ofSerial? (s : Binary64) : Option Moment :=
  if isSerial s then
    ofInstant? (serialEpoch.dayNumber * millisPerDay + forwardMillis (serialMillis s))
  else none

end Gridbase.Moment
