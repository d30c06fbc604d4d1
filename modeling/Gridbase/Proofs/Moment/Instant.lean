import Gridbase.Moment
import Gridbase.Proofs.Date

/-! # The calendar along the line of days

    Days are numbered without gaps: a day number falls on the day that has this number
    (`Date.dayNumber_of_ofDayNumber?`), and every number falls on some day as long as the years
    last (`Date.exists_ofDayNumber?`).  The numbers of a year begin where those of the year before
    it end (`Date.year_le_iff`), so bounds on years are bounds on day numbers.  Within a year, each
    month begins where the one before it ends (`Date.monthStart_succ`).

    A moment is found at its own instant in the same way (`Moment.instant_of_ofInstant?`). -/

namespace Gridbase

namespace Date

/-! ## Years counted from March -/

/-- The days before a year that begins in March.  The leap day is then the last day of
    its year. -/
def daysBeforeYear (year : Int) : Int := 365 * year + year / 4 - year / 100 + year / 400

/-- A year has at least 365 days. -/
theorem daysBeforeYear_lt {a b : Int} (h : a < b) : daysBeforeYear a + 365 ≤ daysBeforeYear b := by
  simp only [daysBeforeYear]
  omega

/-- Leap years are counted by fours, centuries and eras. -/
theorem leapYears_eq (era : Int) {century quad year : Nat} (hcentury : century ≤ 3)
    (hquad : quad ≤ 24) (hyear : year ≤ 3) :
    daysBeforeYear (400 * era + (100 * century + 4 * quad + year : Nat))
      = 146097 * era + (36524 * century + 1461 * quad + 365 * year : Nat) := by
  have hfour : (400 * era + (100 * century + 4 * quad + year : Nat)) / 4
      = 100 * era + 25 * century + quad := by omega
  have hhundred : (400 * era + (100 * century + 4 * quad + year : Nat)) / 100
      = 4 * era + century := by omega
  have hera : (400 * era + (100 * century + 4 * quad + year : Nat)) / 400 = era := by omega
  rw [daysBeforeYear, hfour, hhundred, hera]
  omega

/-- **THE DAY OF A NUMBER** lies so many days after the beginning of its year. -/
theorem daysBeforeYear_yearDay (n : Int) :
    daysBeforeYear (yearDay n).year + (yearDay n).day = n := by
  have hsplit := Int.mul_ediv_add_emod n 146097
  have hnonneg : ((n % 146097).toNat : Int) = n % 146097 := Int.toNat_of_nonneg (by omega)
  have hlt : (n % 146097).toNat < 146097 := by omega
  simp only [yearDay]
  rw [leapYears_eq (n / 146097) (Nat.min_le_right ..) (by omega) (Nat.min_le_right ..)]
  omega

/-! ## Days and their numbers -/

theorem dayNumber_eq (d : Date) :
    d.dayNumber = daysBeforeYear (if d.month ≤ 2 then d.year - 1 else d.year)
      + (daysBeforeMonth ((d.month + 9) % 12) + (d.day - 1) : Nat) := rfl

/-- **A NUMBER FALLS ON THE DAY** that has this number.  The other direction needs that
    the calendar has such a day. -/
theorem dayNumber_of_ofDayNumber? {n : Int} {d : Date} (h : ofDayNumber? n = some d) :
    d.dayNumber = n := by
  rw [ofDayNumber?] at h
  split at h
  case isFalse => cases h
  case isTrue =>
    obtain rfl := Option.some.inj h
    have hday := yearDay_day_le n
    have hsum := daysBeforeYear_yearDay n
    rw [dayNumber_eq]
    show daysBeforeYear (if (yearDay n).civilMonth ≤ 2 then (yearDay n).civilYear - 1
      else (yearDay n).civilYear) + (daysBeforeMonth (((yearDay n).civilMonth + 9) % 12)
        + ((yearDay n).civilDay - 1) : Nat) = n
    generalize yearDay n = y at hday hsum ⊢
    have hmonth : monthFromMarch y.day ≤ 11 := by
      simp only [monthFromMarch]
      omega
    have hbefore : daysBeforeMonth (monthFromMarch y.day) ≤ y.day := by
      simp only [daysBeforeMonth, monthFromMarch]
      omega
    -- January and February are months ten and eleven of the year before
    by_cases hlate : 10 ≤ monthFromMarch y.day
    · have hback : (monthFromMarch y.day - 9 + 9) % 12 = monthFromMarch y.day := by omega
      simp only [YearDay.civilMonth, YearDay.civilYear, YearDay.civilDay, if_pos hlate]
      rw [if_pos (by omega), hback, Int.add_sub_cancel]
      omega
    · have hback : (monthFromMarch y.day + 3 + 9) % 12 = monthFromMarch y.day := by omega
      simp only [YearDay.civilMonth, YearDay.civilYear, YearDay.civilDay, if_neg hlate]
      rw [if_neg (by omega), hback]
      omega

/-! ## Years and their days -/

/-- The number of the first day of a calendar year, which lies 306 days after the March
    of the year before. -/
def yearStart (year : Int) : Int := daysBeforeYear (year - 1) + 306

theorem yearStart_le {a b : Int} (h : a ≤ b) : yearStart a ≤ yearStart b := by
  rcases Int.lt_or_eq_of_le h with hlt | rfl
  · have hdays := daysBeforeYear_lt (Int.sub_lt_sub_right hlt 1)
    simp only [yearStart]
    omega
  · exact Int.le_refl _

/-- A number that comes before the next year falls in this one or an earlier one. -/
theorem le_of_yearStart {a b n : Int} (ha : yearStart a ≤ n) (hb : n < yearStart (b + 1)) :
    a ≤ b := by
  refine Int.not_lt.mp fun hlater => ?_
  have hstart := yearStart_le (Int.add_one_le_of_lt hlater)
  omega

/-- **THE DAYS OF A YEAR** are numbered from its first day to that of the next year. -/
theorem dayNumber_mem_year (d : Date) :
    yearStart d.year ≤ d.dayNumber ∧ d.dayNumber < yearStart (d.year + 1) := by
  obtain ⟨hfirst, hlast⟩ := month_of_day (Nat.le_trans d.one_le_day d.day_le)
  have hday := Nat.le_trans d.day_le (daysInMonth_le d.year d.month)
  have hyear := daysBeforeYear_lt (Int.sub_lt_self d.year Int.one_pos)
  rw [dayNumber_eq, yearStart, yearStart, Int.add_sub_cancel]
  by_cases hearly : d.month ≤ 2
  · rw [if_pos hearly]
    simp only [daysBeforeMonth]
    omega
  · rw [if_neg hearly]
    simp only [daysBeforeMonth]
    omega

/-- **THE YEAR OF A DAY** is at most another if its number comes before the next year. -/
theorem year_le_iff (d : Date) (year : Int) :
    d.year ≤ year ↔ d.dayNumber < yearStart (year + 1) := by
  obtain ⟨hfirst, hlast⟩ := d.dayNumber_mem_year
  constructor
  · intro h
    exact Int.lt_of_lt_of_le hlast (yearStart_le (Int.add_le_add_right h 1))
  · intro h
    exact le_of_yearStart hfirst h

/-- The year that a number falls on. -/
theorem mem_civilYear (n : Int) :
    yearStart (yearDay n).civilYear ≤ n ∧ n < yearStart ((yearDay n).civilYear + 1) := by
  have hday := yearDay_day_le n
  have hsum := daysBeforeYear_yearDay n
  have hback := daysBeforeYear_lt (Int.sub_lt_self (yearDay n).year Int.one_pos)
  have hnext := daysBeforeYear_lt (Int.lt_add_one_of_le (Int.le_refl (yearDay n).year))
  by_cases hlate : 10 ≤ monthFromMarch (yearDay n).day
  · rw [YearDay.civilYear, if_pos hlate, yearStart, yearStart, Int.add_sub_cancel,
      Int.add_sub_cancel]
    simp only [monthFromMarch] at hlate
    omega
  · rw [YearDay.civilYear, if_neg hlate, yearStart, yearStart, Int.add_sub_cancel]
    simp only [monthFromMarch] at hlate
    omega

/-- **EVERY NUMBER FALLS ON A DAY**, from the first year to the last.  Beyond these
    years there is no date, whatever the number. -/
theorem exists_ofDayNumber? {n : Int} (hfirst : yearStart minYear ≤ n)
    (hlast : n < yearStart (maxYear + 1)) : ∃ d, ofDayNumber? n = some d := by
  obtain ⟨hlow, hhigh⟩ := mem_civilYear n
  exact ⟨_, dif_pos ⟨le_of_yearStart hfirst hhigh, le_of_yearStart hlow hlast⟩⟩

/-! ## Months and their days -/

/-- A year has 365 days, and one more if it is a leap year. -/
theorem daysBeforeYear_eq (year : Int) :
    daysBeforeYear year = daysBeforeYear (year - 1) + 337 + daysInMonth year 2 := by
  simp only [daysBeforeYear, daysInMonth]
  split
  case isTrue h =>
    simp only [isLeapYear, Bool.and_eq_true, Bool.or_eq_true, beq_iff_eq, bne_iff_ne] at h
    omega
  case isFalse h =>
    simp only [isLeapYear, Bool.and_eq_true, Bool.or_eq_true, beq_iff_eq, bne_iff_ne] at h
    omega

/-- The number of the first day of a month.  January and February belong to the year
    before, counted from March. -/
def monthStart (year : Int) (month : Nat) : Int :=
  daysBeforeYear (if month ≤ 2 then year - 1 else year) + daysBeforeMonth ((month + 9) % 12)

/-- **A MONTH BEGINS** where the one before it ends. -/
theorem monthStart_succ (year : Int) {month : Nat} (hfirst : 1 ≤ month) (hlast : month ≤ 11) :
    monthStart year (month + 1) = monthStart year month + daysInMonth year month := by
  match month with
  | 2 =>
      show daysBeforeYear year + 0 = daysBeforeYear (year - 1) + 337 + daysInMonth year 2
      rw [daysBeforeYear_eq, Int.add_zero]
  | 1 | 3 | 4 | 5 | 6 | 7 | 8 | 9 | 10 | 11 =>
      rw [monthStart, monthStart, Int.add_assoc]
      rfl

/-- A month is over when a later one of the year begins. -/
theorem monthStart_add_le (year : Int) {month later : Nat} (hfirst : 1 ≤ month)
    (hlt : month < later) (hlast : later ≤ 12) :
    monthStart year month + daysInMonth year month ≤ monthStart year later := by
  induction later with
  | zero => exact absurd hlt (Nat.not_lt_zero month)
  | succ later ih =>
      rcases Nat.lt_or_eq_of_le (Nat.le_of_lt_succ hlt) with hbefore | rfl
      · rw [monthStart_succ year (by omega) (by omega)]
        have hstart := ih hbefore (by omega)
        omega
      · exact Int.le_of_eq (monthStart_succ year hfirst (by omega)).symm

/-- **A DAY IS NUMBERED** from the first one of its month. -/
theorem dayNumber_eq_monthStart (d : Date) :
    d.dayNumber = monthStart d.year d.month + (d.day - 1 : Nat) := by
  rw [dayNumber_eq, monthStart, Int.natCast_add, Int.add_assoc]

/-- Days of an earlier year have smaller numbers. -/
theorem dayNumber_lt_of_year {a b : Date} (h : a.year < b.year) : a.dayNumber < b.dayNumber :=
  Int.lt_of_lt_of_le a.dayNumber_mem_year.2
    (Int.le_trans (yearStart_le (Int.add_one_le_of_lt h)) b.dayNumber_mem_year.1)

/-- Days of an earlier month of the year have smaller numbers. -/
theorem dayNumber_lt_of_month {a b : Date} (hyear : a.year = b.year) (h : a.month < b.month) :
    a.dayNumber < b.dayNumber := by
  obtain ⟨hfirst, -⟩ := month_of_day (Nat.le_trans a.one_le_day a.day_le)
  obtain ⟨-, hlast⟩ := month_of_day (Nat.le_trans b.one_le_day b.day_le)
  have hmonth := monthStart_add_le a.year hfirst h hlast
  have hday := a.day_le
  have hone := a.one_le_day
  rw [dayNumber_eq_monthStart, dayNumber_eq_monthStart, ← hyear]
  omega

end Date

/-! ## Moments -/

namespace Moment

/-- **AN INSTANT IS THAT OF THE MOMENT** found at it. -/
theorem instant_of_ofInstant? {z : Int} {m : Moment} (h : ofInstant? z = some m) :
    m.instant = z := by
  obtain ⟨d, hd, rfl⟩ := Option.map_eq_some_iff.mp h
  show d.dayNumber * millisPerDay + ((z % millisPerDay).toNat : Int) = z
  rw [Date.dayNumber_of_ofDayNumber? hd, millisPerDay]
  omega

/-- **EVERY INSTANT HAS ITS MOMENT**, from the first year to the last. -/
theorem exists_ofInstant? {z : Int} (hfirst : Date.yearStart minYear * millisPerDay ≤ z)
    (hlast : z < Date.yearStart (maxYear + 1) * millisPerDay) :
    ∃ m, ofInstant? z = some m ∧ m.instant = z := by
  obtain ⟨d, hd⟩ : ∃ d, Date.ofDayNumber? (z / millisPerDay) = some d :=
    Date.exists_ofDayNumber? (Int.le_ediv_of_mul_le (by decide) hfirst)
      (Int.ediv_lt_of_lt_mul (by decide) hlast)
  have hmoment : ofInstant? z = some ⟨d, _, milli_of_instant_lt z⟩ := by
    rw [ofInstant?, hd, Option.map_some]
  exact ⟨_, hmoment, instant_of_ofInstant? hmoment⟩

/-- The day number of a moment is that of its instant. -/
theorem dayNumber_eq_instant (m : Moment) : m.date.dayNumber = m.instant / millisPerDay := by
  have hmilli := m.milli_lt
  rw [instant]
  simp only [millisPerDay] at hmilli ⊢
  omega

end Moment

end Gridbase
