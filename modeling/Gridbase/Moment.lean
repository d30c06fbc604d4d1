import Gridbase.Date

/-! # Moments

    A date together with a time of day in milliseconds, without a time zone. -/

namespace Gridbase

/-- The milliseconds of a day. -/
def millisPerDay : Nat := 86400000

/-- A date and the milliseconds since its midnight.  There is no leap second, so that
    every day has the same number of them. -/
structure Moment where
  date : Date
  milli : Nat := 0
  milli_lt : milli < millisPerDay := by decide
deriving DecidableEq

namespace Moment

/-- The moment as milliseconds since day zero. -/
def instant (m : Moment) : Int := m.date.dayNumber * millisPerDay + m.milli

/-- The milliseconds of a count that are left after whole days. -/
theorem milli_of_instant_lt (z : Int) : (z % millisPerDay).toNat < millisPerDay := by
  simp only [millisPerDay]
  omega

/-- The moment at a number of milliseconds since day zero, if its year is within
    range. -/
def ofInstant? (z : Int) : Option Moment :=
  -- both operations round down, so that the time of day is never negative
  (Date.ofDayNumber? (z / millisPerDay)).map fun date =>
    ⟨date, (z % millisPerDay).toNat, milli_of_instant_lt z⟩

/-- Hours, minutes and seconds. -/
def clockText (m : Moment) : List Char :=
  let seconds := m.milli / 1000
  Text.padded 2 (seconds / 3600) ++ ':' :: Text.padded 2 (seconds / 60 % 60)
    ++ ':' :: Text.padded 2 (seconds % 60)

/-- Date and time of day to the second, with a blank between them.  This is how a
    moment is stored and shown; its milliseconds are cut off and not rounded. -/
def text (m : Moment) : String := String.ofList (m.date.text ++ ' ' :: m.clockText)

end Moment

end Gridbase
