import Gridbase.Text.Digits

/-! # Calendar dates

    Dates of the proleptic Gregorian calendar and their numbering by days.
    A `Date` exists only for days the calendar has, within a fixed range of
    years.  Years are counted from March for the numbering, so that the leap day
    is the last of its year. -/

namespace Gridbase

/-- A year with 366 days. -/
def isLeapYear (year : Int) : Bool := year % 4 == 0 && (year % 100 != 0 || year % 400 == 0)

/-- The length of a month; there is no day in a month that does not exist. -/
def daysInMonth (year : Int) (month : Nat) : Nat :=
  match month with
  | 1 | 3 | 5 | 7 | 8 | 10 | 12 => 31
  | 4 | 6 | 9 | 11 => 30
  | 2 => if isLeapYear year then 29 else 28
  | _ => 0

/-- The first year. -/
def minYear : Int := -262143

/-- The last year. -/
def maxYear : Int := 262142

/-- A day of the calendar. -/
structure Date where
  year : Int
  month : Nat
  day : Nat
  minYear_le : minYear ≤ year := by decide
  le_maxYear : year ≤ maxYear := by decide
  one_le_day : 1 ≤ day := by decide
  day_le : day ≤ daysInMonth year month := by decide
deriving DecidableEq

namespace Date

/-- The day with the given year, month and day, if there is one. -/
def ofCivil? (year : Int) (month day : Nat) : Option Date :=
  if h : (minYear ≤ year ∧ year ≤ maxYear) ∧ 1 ≤ day ∧ day ≤ daysInMonth year month then
    some ⟨year, month, day, h.1.1, h.1.2, h.2.1, h.2.2⟩
  else none

/-! ## Day numbers -/

/-- The days before a month in a year that begins in March.  The lengths of the months
    from March on repeat every five months, which make 153 days. -/
def daysBeforeMonth (monthFromMarch : Nat) : Nat := (153 * monthFromMarch + 2) / 5

/-- The number of a day, counted from 1 March of the year 0.  Division rounds down, so
    that the count of leap days is right before that day too. -/
def dayNumber (d : Date) : Int :=
  let year := if d.month ≤ 2 then d.year - 1 else d.year
  365 * year + year / 4 - year / 100 + year / 400
    + (daysBeforeMonth ((d.month + 9) % 12) + (d.day - 1) : Nat)

/-- A day within its year, both counted from March. -/
structure YearDay where
  year : Int
  day : Nat
deriving DecidableEq

/-- The year and the day within it that a number falls on: four centuries, one
    century, four years, one year at a time. -/
def yearDay (n : Int) : YearDay :=
  let inEra := (n % 146097).toNat
  -- the last century of an era and the last year of four are a day longer
  let century := min (inEra / 36524) 3
  let inCentury := inEra - 36524 * century
  let quad := inCentury / 1461
  let inQuad := inCentury - 1461 * quad
  let year := min (inQuad / 365) 3
  ⟨400 * (n / 146097) + (100 * century + 4 * quad + year : Nat), inQuad - 365 * year⟩

/-- The month, counted from March, that a day of the year falls in. -/
def monthFromMarch (day : Nat) : Nat := (5 * day + 2) / 153

/-- The calendar year of a day: January and February belong to the next one. -/
def YearDay.civilYear (y : YearDay) : Int :=
  if 10 ≤ monthFromMarch y.day then y.year + 1 else y.year

/-- The calendar month of a day. -/
def YearDay.civilMonth (y : YearDay) : Nat :=
  if 10 ≤ monthFromMarch y.day then monthFromMarch y.day - 9 else monthFromMarch y.day + 3

/-- The day of the month. -/
def YearDay.civilDay (y : YearDay) : Nat :=
  y.day - daysBeforeMonth (monthFromMarch y.day) + 1

/-- A year has at most 366 days. -/
theorem yearDay_day_le (n : Int) : (yearDay n).day ≤ 365 := by
  simp only [yearDay]
  omega

/-- Only a leap year, counted from March, has its 366th day. -/
theorem isLeapYear_of_last_day (n : Int) (h : (yearDay n).day = 365) :
    isLeapYear ((yearDay n).year + 1) = true := by
  simp only [yearDay] at h
  simp only [yearDay, isLeapYear, Bool.and_eq_true, Bool.or_eq_true, beq_iff_eq, bne_iff_ne]
  omega

/-- The day of the month that a number falls on is within the month. -/
theorem civilDay_le (n : Int) :
    (yearDay n).civilDay ≤ daysInMonth (yearDay n).civilYear (yearDay n).civilMonth := by
  have hday := yearDay_day_le n
  have hleap := isLeapYear_of_last_day n
  generalize yearDay n = y at hday hleap ⊢
  have hmonth : monthFromMarch y.day = 0 ∨ monthFromMarch y.day = 1 ∨ monthFromMarch y.day = 2
      ∨ monthFromMarch y.day = 3 ∨ monthFromMarch y.day = 4 ∨ monthFromMarch y.day = 5
      ∨ monthFromMarch y.day = 6 ∨ monthFromMarch y.day = 7 ∨ monthFromMarch y.day = 8
      ∨ monthFromMarch y.day = 9 ∨ monthFromMarch y.day = 10 ∨ monthFromMarch y.day = 11 := by
    simp only [monthFromMarch]
    omega
  simp only [YearDay.civilDay, YearDay.civilYear, YearDay.civilMonth]
  rcases hmonth with h | h | h | h | h | h | h | h | h | h | h | h <;>
    simp only [h, daysInMonth, daysBeforeMonth, Nat.reduceLeDiff, if_true, if_false] <;>
    simp only [monthFromMarch] at h
  case inr.inr.inr.inr.inr.inr.inr.inr.inr.inr.inr =>
    by_cases hlast : y.day = 365
    · simp [hleap hlast]
      omega
    · simp
      split <;> omega
  all_goals
    simp
    omega

/-- The day with a number, if its year is within range. -/
def ofDayNumber? (n : Int) : Option Date :=
  let y := (yearDay n).civilYear
  if h : minYear ≤ y ∧ y ≤ maxYear then
    some ⟨y, (yearDay n).civilMonth, (yearDay n).civilDay, h.1, h.2,
      Nat.le_add_left _ _, civilDay_le n⟩
  else none

/-! ## Text -/

/-- Four digits for the years 0 to 9999; a sign and at least four digits beyond. -/
def yearText (year : Int) : List Char :=
  if 0 ≤ year ∧ year ≤ 9999 then Text.padded 4 year.toNat
  else (if year < 0 then '-' else '+') :: Text.padded 4 year.natAbs

/-- Year, month and day with dashes.  For the years of four digits the order of these
    texts is that of the dates. -/
def text (d : Date) : List Char :=
  yearText d.year ++ '-' :: Text.padded 2 d.month ++ '-' :: Text.padded 2 d.day

end Date

end Gridbase
