import Gridbase.Proofs.Moment.Instant
import Gridbase.Proofs.Store.Comparison
import Gridbase.Proofs.Store.Moments

/-! # Stored moments in order

    A stored moment is text, and texts are compared from left to right.  Year, month, day, hour,
    minute and second have a fixed width each and stand in this order, so comparing two texts is
    comparing the six numbers one after the other (`Moment.compareChars_text`).  The same six
    numbers decide which moment is earlier: dates by their day numbers
    (`Date.compareInt_dayNumber`), and seconds by the clock (`Moment.compareInt_second`).  So
    moments that can be read from cells are stored in the order of time (`Cell.stored_in_order`). -/

namespace Gridbase

open Gridbase.Text

/-! ## Comparing numbers place by place -/

namespace Stored

theorem compareInt_eq_lt {a b : Int} : compareInt a b = .lt ↔ a < b := by
  rw [compareInt]
  split
  case isTrue h => simp only [h]
  case isFalse h =>
    simp only [h, iff_false]
    split <;> exact Ordering.noConfusion

theorem compareInt_eq_gt {a b : Int} (h : b < a) : compareInt a b = .gt := by
  rw [compareInt, if_neg (Int.not_lt.mpr (Int.le_of_lt h)), if_pos h]

/-- **THE FIRST PLACE DECIDES** where it differs, and the rest where it does not. -/
theorem compareInt_eq_then {p p' x x' : Int} {rest : Ordering} (hlt : p < p' → x < x')
    (hgt : p' < p → x' < x) (heq : p = p' → compareInt x x' = rest) :
    compareInt x x' = (compareInt p p').then rest := by
  rcases Int.lt_trichotomy p p' with h | h | h
  · rw [compareInt_eq_lt.mpr h, compareInt_eq_lt.mpr (hlt h)]
    rfl
  · rw [compareInt_eq.mpr h, heq h]
    rfl
  · rw [compareInt_eq_gt h, compareInt_eq_gt (hgt h)]
    rfl

/-- Numbers with the same amount added are compared as they are. -/
theorem compareInt_add_left (k a b : Int) : compareInt (k + a) (k + b) = compareInt a b := by
  simp only [compareInt, Int.add_lt_add_iff_left]

/-- A number in two places is compared by the higher place first. -/
theorem compareInt_places {width p p' q q' : Nat} (hq : q < width) (hq' : q' < width) :
    compareInt (p * width + q : Nat) (p' * width + q' : Nat)
      = (compareInt p p').then (compareInt q q') := by
  have hplace {p p' q q' : Nat} (hq : q < width) (h : (p : Int) < p') :
      ((p * width + q : Nat) : Int) < (p' * width + q' : Nat) := by
    have hnext : (p + 1) * width ≤ p' * width :=
      Nat.mul_le_mul_right width (Nat.succ_le_of_lt (Int.ofNat_lt.mp h))
    rw [Nat.add_mul, Nat.one_mul] at hnext
    omega
  refine compareInt_eq_then (hplace hq) (hplace hq') fun h => ?_
  obtain rfl := Int.ofNat_inj.mp h
  rw [Int.natCast_add, Int.natCast_add, compareInt_add_left]

/-! ## Comparing texts place by place -/

/-- Compares texts from left to right, by the numbers of their characters. -/
def compareChars (as bs : List Char) : Ordering :=
  compareList (as.map Char.toNat) (bs.map Char.toNat)

theorem compareList_cons (n : Nat) (as bs : List Nat) :
    compareList (n :: as) (n :: bs) = compareList as bs := by
  rw [compareList, if_neg (Nat.lt_irrefl n), if_neg (Nat.lt_irrefl n)]

theorem compareChars_cons_self (c : Char) (as bs : List Char) :
    compareChars (c :: as) (c :: bs) = compareChars as bs := compareList_cons ..

/-- The first characters decide where they differ. -/
theorem compareChars_cons (a b : Char) (as bs : List Char) :
    compareChars (a :: as) (b :: bs)
      = (compareInt a.toNat b.toNat).then (compareChars as bs) := by
  show compareList (a.toNat :: _) (b.toNat :: _) = _
  rw [compareList, compareInt]
  simp only [Int.ofNat_lt]
  split
  · rfl
  · split <;> rfl

/-- Parts of one length are compared before what follows them. -/
theorem compareChars_append {as bs : List Char} (h : as.length = bs.length) (cs ds : List Char) :
    compareChars (as ++ cs) (bs ++ ds) = (compareChars as bs).then (compareChars cs ds) := by
  induction as generalizing bs with
  | nil =>
      obtain rfl := List.length_eq_zero_iff.mp h.symm
      rfl
  | cons a as ih =>
      cases bs with
      | nil => exact nomatch h
      | cons b bs =>
          rw [List.cons_append, List.cons_append, compareChars_cons, compareChars_cons,
            ih (Nat.succ.inj h), Ordering.then_assoc]

/-- **A TEXT IS LESS THAN ANOTHER** if it is compared as less.  The order of texts is
    that of their characters, so the two go together from left to right. -/
theorem compareChars_eq_lt {as bs : List Char} : compareChars as bs = .lt ↔ as < bs := by
  induction as generalizing bs with
  | nil =>
      cases bs with
      | nil => exact ⟨nofun, fun h => absurd h (List.not_lt_nil _)⟩
      | cons b bs => exact ⟨fun _ => List.nil_lt_cons .., fun _ => rfl⟩
  | cons a as ih =>
      cases bs with
      | nil => exact ⟨nofun, fun h => absurd h (List.not_lt_nil _)⟩
      | cons b bs =>
          rw [compareChars_cons, List.cons_lt_cons_iff, ← ih, Char.lt_def, UInt32.lt_iff_toNat_lt]
          show _ ↔ a.toNat < b.toNat ∨ _
          -- the first characters decide, or are the same
          rcases Nat.lt_trichotomy a.toNat b.toNat with h | h | h
          · rw [compareInt_eq_lt.mpr (Int.ofNat_lt.mpr h)]
            simp [h]
          · rw [compareInt_eq.mpr (Int.ofNat_inj.mpr h), Char.toNat_inj.mp h]
            simp
          · have hne : a ≠ b := fun heq => absurd h (by rw [heq]; exact Nat.lt_irrefl _)
            rw [compareInt_eq_gt (Int.ofNat_lt.mpr h)]
            simp [hne, Nat.le_of_lt h]

/-- Texts that compare as equal are equal. -/
theorem compareChars_eq_eq {as bs : List Char} : compareChars as bs = .eq ↔ as = bs := by
  rw [compareChars, compareList_eq, List.map_inj_right fun _ _ => Char.toNat_inj.mp]

/-- **DIGITS ARE COMPARED AS THEIR NUMBERS**, if there are as many of them.  A shorter
    text of digits could be less as a number and greater as a text. -/
theorem compareChars_digits {as bs : List Char} (has : AllDigits as) (hbs : AllDigits bs)
    (h : as.length = bs.length) :
    compareChars as bs = compareInt (ofDigits as) (ofDigits bs) := by
  induction as generalizing bs with
  | nil =>
      obtain rfl := List.length_eq_zero_iff.mp h.symm
      rfl
  | cons a as ih =>
      cases bs with
      | nil => exact nomatch h
      | cons b bs =>
          obtain ⟨ha, has⟩ := List.forall_mem_cons.mp has
          obtain ⟨hb, hbs⟩ := List.forall_mem_cons.mp hbs
          have hlength := Nat.succ.inj h
          -- digits are in the order of their values
          have hvalue : compareInt a.toNat b.toNat = compareInt (digitValue a) (digitValue b) := by
            have hzero := (Char.isDigit_iff_toNat.mp ha).1
            have hzero' := (Char.isDigit_iff_toNat.mp hb).1
            rw [← compareInt_add_left '0'.toNat (digitValue a), digitValue, digitValue,
              ← Int.natCast_add, ← Int.natCast_add, Nat.add_sub_of_le hzero,
              Nat.add_sub_of_le hzero']
          rw [compareChars_cons, ih has hbs hlength, ofDigits_cons, ofDigits_cons, ← hlength,
            compareInt_places (ofDigits_lt has) (by rw [hlength]; exact ofDigits_lt hbs), hvalue]

/-- Numbers that are padded to one width are compared as numbers. -/
theorem compareChars_padded {width m n : Nat} (hm : m < 10 ^ width) (hn : n < 10 ^ width)
    (hwidth : 0 < width) :
    compareChars (padded width m) (padded width n) = compareInt m n := by
  rw [compareChars_digits (allDigits_padded width m) (allDigits_padded width n)
    (by rw [length_padded hwidth hm, length_padded hwidth hn]), ofDigits_padded, ofDigits_padded]

/-- A padded number is compared before what follows it behind a mark. -/
theorem compareChars_field {width m n : Nat} (hm : m < 10 ^ width) (hn : n < 10 ^ width)
    (hwidth : 0 < width) (mark : Char) (as bs : List Char) :
    compareChars (padded width m ++ mark :: as) (padded width n ++ mark :: bs)
      = (compareInt m n).then (compareChars as bs) := by
  rw [compareChars_append (by rw [length_padded hwidth hm, length_padded hwidth hn]),
    compareChars_padded hm hn hwidth, compareChars_cons_self]

end Stored

/-! ## Dates -/

namespace Date

open Stored

/-- **DAYS ARE COMPARED** by year, month and day of the month.  The number of a day
    grows with each of them, and the days of a month never reach the next. -/
theorem compareInt_dayNumber (a b : Date) :
    compareInt a.dayNumber b.dayNumber
      = (compareInt a.year b.year).then
        ((compareInt a.month b.month).then (compareInt a.day b.day)) := by
  refine compareInt_eq_then dayNumber_lt_of_year dayNumber_lt_of_year fun hyear => ?_
  refine compareInt_eq_then (fun h => dayNumber_lt_of_month hyear (Int.ofNat_lt.mp h))
    (fun h => dayNumber_lt_of_month hyear.symm (Int.ofNat_lt.mp h)) fun hmonth => ?_
  have hday (d : Date) : (d.day : Int) = 1 + (d.day - 1 : Nat) := by
    have hone := d.one_le_day
    omega
  rw [dayNumber_eq_monthStart, dayNumber_eq_monthStart, hyear, Int.ofNat_inj.mp hmonth,
    compareInt_add_left, hday a, hday b, compareInt_add_left]

end Date

/-! ## Moments -/

namespace Moment

open Stored

/-- The second that a moment falls in, counted from day zero. -/
theorem instant_div (m : Moment) : m.instant / 1000 = m.date.dayNumber * 86400 + m.second := by
  rw [instant, second, millisPerDay]
  omega

/-- **SECONDS ARE COMPARED** by their days, and within a day by the clock. -/
theorem compareInt_instant (a b : Moment) :
    compareInt (a.instant / 1000) (b.instant / 1000)
      = (compareInt a.date.dayNumber b.date.dayNumber).then (compareInt a.second b.second) := by
  have ha := a.second_lt
  have hb := b.second_lt
  rw [instant_div, instant_div]
  refine compareInt_eq_then (fun h => by omega) (fun h => by omega) fun h => ?_
  rw [h, compareInt_add_left]

/-- The clock shows hours, minutes and seconds. -/
theorem compareInt_second (a b : Moment) :
    compareInt a.second b.second
      = (compareInt (a.second / 3600 : Nat) (b.second / 3600 : Nat)).then
        ((compareInt (a.second / 60 % 60 : Nat) (b.second / 60 % 60 : Nat)).then
          (compareInt (a.second % 60 : Nat) (b.second % 60 : Nat))) := by
  have hclock (s : Nat) : s = (s / 3600 * 60 + s / 60 % 60) * 60 + s % 60 := by omega
  have hsixty (s : Nat) : s % 60 < 60 := Nat.mod_lt s (by decide)
  rw [← Ordering.then_assoc, ← compareInt_places (hsixty (a.second / 60)) (hsixty (b.second / 60)),
    ← compareInt_places (hsixty a.second) (hsixty b.second), ← hclock, ← hclock]

/-- A year of four digits is written with them. -/
theorem text_eq_of_year {m : Moment} (hlow : 0 ≤ m.date.year) (hhigh : m.date.year ≤ 9999) :
    m.text.toList = padded 4 m.date.year.toNat ++ '-' :: (padded 2 m.date.month
      ++ '-' :: (padded 2 m.date.day ++ ' ' :: m.clockText)) := by
  rw [text, String.toList_ofList, Date.text, Date.yearText, if_pos ⟨hlow, hhigh⟩]
  simp only [List.append_assoc, List.cons_append]

/-- **TEXTS OF MOMENTS ARE COMPARED AS THEIR SECONDS**, in the years of four digits.
    Beyond these years a text has a sign, or more digits. -/
theorem compareChars_text {a b : Moment} (ha : 0 ≤ a.date.year ∧ a.date.year ≤ 9999)
    (hb : 0 ≤ b.date.year ∧ b.date.year ≤ 9999) :
    compareChars a.text.toList b.text.toList
      = compareInt (a.instant / 1000) (b.instant / 1000) := by
  have hclock := a.second_lt
  have hclock' := b.second_lt
  have htwo : 0 < 2 := Nat.two_pos
  rw [text_eq_of_year ha.1 ha.2, text_eq_of_year hb.1 hb.2,
    compareChars_field (by omega) (by omega) (by decide),
    compareChars_field a.date.month_lt b.date.month_lt htwo,
    compareChars_field a.date.day_lt b.date.day_lt htwo, clockText_eq, clockText_eq,
    compareChars_field (by omega) (by omega) htwo, compareChars_field (by omega) (by omega) htwo,
    compareChars_padded (by omega) (by omega) htwo, ← compareInt_second, compareInt_instant,
    Date.compareInt_dayNumber, Int.toNat_of_nonneg ha.1, Int.toNat_of_nonneg hb.1,
    Ordering.then_assoc, Ordering.then_assoc]

end Moment

/-! ## Cells -/

namespace Cell

open Stored

/-- A moment that is read has a year of four digits. -/
theorem year_of_read {type : DataType} {info : ColumnInfo} {text : String} {m : Moment}
    (h : Cell.read type info text = .ok (.moment m)) : 0 ≤ m.date.year ∧ m.date.year ≤ 9999 := by
  cases fits_of_read h with
  | dateTime hlow hhigh => exact ⟨by omega, hhigh⟩

/-- **STORED MOMENTS SORT LIKE TIME.**  Both are in the supported range, so their years
    have four digits.  Moments within one second have one text, and compare as equal. -/
theorem stored_in_order {type type' : DataType} {info info' : ColumnInfo} {text text' : String}
    {a b : Moment} (ha : Cell.read type info text = .ok (.moment a))
    (hb : Cell.read type' info' text' = .ok (.moment b)) :
    (a.instant ≤ b.instant → a.text ≤ b.text)
      ∧ (a.text = b.text ↔ a.instant / 1000 = b.instant / 1000)
      ∧ (Stored.ofValue (.moment a)).compare (Stored.ofValue (.moment b))
        = compareInt (a.instant / 1000) (b.instant / 1000)
      ∧ Stored.ofValue (.moment a) = .text a.text
      ∧ (Value.moment a).literal = "'" ++ a.text ++ "'"
      ∧ (Value.moment a).display = a.text := by
  have hcompare : compareChars a.text.toList b.text.toList
      = compareInt (a.instant / 1000) (b.instant / 1000) :=
    Moment.compareChars_text (year_of_read ha) (year_of_read hb)
  have hcompare' : compareChars b.text.toList a.text.toList
      = compareInt (b.instant / 1000) (a.instant / 1000) :=
    Moment.compareChars_text (year_of_read hb) (year_of_read ha)
  refine ⟨?_, ?_, hcompare, rfl, rfl, rfl⟩
  · intro hinstant
    -- an order of texts that is against that of the moments would be one of their seconds
    refine String.not_lt.mp fun hless => ?_
    have hseconds := compareChars_eq_lt.mpr (show b.text.toList < a.text.toList from hless)
    rw [hcompare', compareInt_eq_lt] at hseconds
    exact absurd hseconds (Int.not_lt.mpr (Int.ediv_le_ediv (by decide) hinstant))
  · rw [← compareInt_eq, ← hcompare, compareChars_eq_eq, String.toList_inj]

/-- The leap day of 2024. -/
def leapDay : Date := (Date.ofCivil? 2024 2 29).get rfl

/-- A quarter of the day after it. -/
def leapMorning : Moment := { date := (Date.ofCivil? 2024 3 1).get rfl, milli := 21600000 }

/-- A leap day comes before the next morning, whose serial is a number with a fraction.
    One is read from a date and one from a serial, and both are written in the same way.
    -/
theorem stored_in_order_leapDay :
    Cell.read .dateTime startColumn "2024/2/29" = .ok (.moment { date := leapDay })
      ∧ Cell.read .dateTime startColumn "45352.25" = .ok (.moment leapMorning)
      ∧ Moment.instant { date := leapDay } ≤ leapMorning.instant
      ∧ Moment.text { date := leapDay } = "2024-02-29 00:00:00"
      ∧ leapMorning.text = "2024-03-01 06:00:00"
      ∧ Moment.text { date := leapDay } ≤ leapMorning.text := by
  have hday : Cell.read .dateTime startColumn "2024/2/29" = .ok (.moment { date := leapDay }) := by
    decide +kernel
  have hmorning : Cell.read .dateTime startColumn "45352.25" = .ok (.moment leapMorning) := by
    decide +kernel
  have hle : Moment.instant { date := leapDay } ≤ leapMorning.instant := by decide
  exact ⟨hday, hmorning, hle, by decide +kernel, by decide +kernel,
    (stored_in_order hday hmorning).1 hle⟩

end Cell
end Gridbase
