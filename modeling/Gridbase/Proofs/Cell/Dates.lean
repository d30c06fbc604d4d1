import Gridbase.Proofs.Cell
import Gridbase.Proofs.Date.Layouts

/-! # Cells of dates

    A cell of a date is offered to the reader of numbers first, and then to the layouts in their
    order.  A date that is written in one of the layouts is read by this one, whatever blanks are
    around it (`read_write`): the mark after its first digits ends the number, and a layout that
    comes earlier misses its mark or leaves digits at the end.

    A text without a slash is left to the layout with dashes, which asks for ten bytes.  The bytes
    may be blanks in front of a number or a sign in front of the year instead of digits
    (`read_dashed_iff`). -/

namespace Gridbase

open Gridbase.Text

/-! ## Numbers and marks -/

namespace Binary64

/-- The mark of a date is no part of a number. -/
theorem unsigned?_of_mark {ds : List Char} {mark : Char} (hds : AllDigits ds) (hne : ds ≠ [])
    (hmark : mark = '/' ∨ mark = '-') (neg : Bool) (cs : List Char) :
    unsigned? neg (ds ++ mark :: cs) = none := by
  have hstops : StopsDigits (mark :: cs) := by
    rcases hmark with rfl | rfl <;> exact stopsDigits_cons rfl cs
  rw [unsigned?, takeWhile_digits hds hstops, dropWhile_digits hds hstops]
  rcases hmark with rfl | rfl <;> simp [hne]

/-- A name begins with a letter. -/
theorem named?_of_digit {c : Char} (hc : c.isDigit = true) (neg : Bool) (cs : List Char) :
    named? neg (c :: cs) = none := by
  have hname (name : String) (hne : name.toList.head? ≠ some c) :
      String.ofList (lower (c :: cs)) ≠ name := by
    rintro rfl
    refine hne ?_
    rw [String.toList_ofList, lower, List.map_cons, List.head?_cons, toLower_of_isDigit hc]
  have hletter {l : Char} (hl : l.isDigit = false) : some l ≠ some c := by
    rintro ⟨⟩
    rw [hc] at hl
    cases hl
  rw [named?]
  simp only [hname "inf" (hletter rfl), hname "infinity" (hletter rfl), hname "nan" (hletter rfl),
    decide_false, Bool.or_false, Bool.false_eq_true, if_false]

/-- A number that begins with a digit has no sign. -/
theorem read?_of_digit {c : Char} (hc : c.isDigit = true) (cs : List Char) :
    read? (c :: cs) = (unsigned? false (c :: cs)).orElse fun _ => named? false (c :: cs) := by
  have hsign {mark : Char} {rest : List Char} (h : c :: cs = mark :: rest) :
      mark.isDigit = true := by
    rwa [← (List.cons.inj h).1]
  rw [read?.eq_def]
  split
  case _ neg body hbody =>
    split at hbody
    case _ h => cases hsign h
    case _ h => cases hsign h
    case _ =>
      cases hbody
      rfl

/-- **A DATE IS NO NUMBER**: digits are not followed by a slash or a dash in one. -/
theorem read?_of_mark {ds : List Char} {mark : Char} (hds : AllDigits ds) (hne : ds ≠ [])
    (hmark : mark = '/' ∨ mark = '-') (cs : List Char) : read? (ds ++ mark :: cs) = none := by
  have hunsigned := unsigned?_of_mark hds hne hmark false cs
  obtain ⟨d, ds, rfl⟩ := List.exists_cons_of_ne_nil hne
  have hd : d.isDigit = true := hds d (List.mem_cons_self ..)
  rw [List.cons_append] at hunsigned ⊢
  rw [read?_of_digit hd, hunsigned, named?_of_digit hd]
  rfl

end Binary64

namespace Cell

/-! ## Layouts -/

section

variable {cs : List Char} {d : Date}

/-- The layout with slashes is tried first. -/
theorem textDate?_of_slashed (h : Date.read? Date.slashed cs = some d) : textDate? cs = some d := by
  rw [textDate?, h]
  rfl

/-- The layout with dashes is tried next, if it is tried at all. -/
theorem textDate?_of_not_slashed (h : Date.read? Date.slashed cs = none) :
    textDate? cs = (if (String.ofList cs).utf8ByteSize = 10 then Date.read? Date.dashed cs
      else none).orElse fun _ => Date.read? Date.monthFirst cs := by
  rw [textDate?, h]
  rfl

/-- **WITHOUT A SLASH** only the layout with dashes is left. -/
theorem textDate?_of_no_slash (h : '/' ∉ cs) :
    textDate? cs = if (String.ofList cs).utf8ByteSize = 10 then Date.read? Date.dashed cs
      else none := by
  have hnone {layout : List Date.Part} (hslash : .mark '/' ∈ layout) :
      Date.read? layout cs = none :=
    Option.eq_none_iff_forall_ne_some.mpr fun d hd => h (Date.mem_of_read? hd hslash)
  have hmonthFirst : Date.read? Date.monthFirst cs = none := hnone (by decide)
  rw [textDate?_of_not_slashed (hnone (by decide)), hmonthFirst]
  exact Option.orElse_eq_or.trans Option.or_none

end

section

variable {d : Date} {write : Nat → List Char} (hfirst : 0 ≤ d.year) (hlast : d.year ≤ 9999)

include hfirst hlast

theorem textDate?_yearDash : textDate? (Date.Layout.yearDash.write d) = some d := by
  have hslashed : Date.read? Date.slashed (Date.Layout.yearDash.write d) = none :=
    Date.read?_of_other_mark (Date.yearText_year hfirst hlast) rfl (by decide) _ _
  have hdashed : Date.read? Date.dashed (Date.Layout.yearDash.write d) = some d :=
    Date.read?_yearFirst_write hfirst hlast d.numeral_month d.numeral_day rfl
  rw [textDate?_of_not_slashed hslashed,
    if_pos (Date.Layout.utf8ByteSize_yearDash hfirst hlast), hdashed]
  rfl

variable (hmonth : Date.Numeral 2 d.month (write d.month))
  (hday : Date.Numeral 2 d.day (write d.day))

include hmonth hday

theorem textDate?_yearFirst : textDate? (d.yearFirst '/' write) = some d :=
  textDate?_of_slashed (Date.read?_yearFirst_write hfirst hlast hmonth hday rfl)

theorem textDate?_monthFirst : textDate? (d.monthFirstText write) = some d := by
  have hslashed : Date.read? Date.slashed (d.monthFirstText write) = none :=
    Date.read?_slashed_monthFirst (Date.numeral_year hfirst hlast)
      (Date.length_year hfirst hlast) hmonth hday
  -- a month is a year of two digits, but no dash follows it
  have hdashed : Date.read? Date.dashed (d.monthFirstText write) = none :=
    Date.read?_of_other_mark
      (.plain (hmonth.widen (Nat.le_trans hmonth.length_le (by decide)))) rfl (by decide) _ _
  rw [textDate?_of_not_slashed hslashed, hdashed, ite_self]
  exact Date.read?_monthFirst (Date.yearText_year hfirst hlast) hmonth hday

end

/-- **A WRITTEN DATE IS READ** as it is written, and by no layout before.  The five
    layouts are tried in order: each of the later ones needs to know that no earlier one
    takes its texts for another date. -/
theorem textDate?_write (layout : Date.Layout) {d : Date} (hfirst : 0 ≤ d.year)
    (hlast : d.year ≤ 9999) : textDate? (layout.write d) = some d := by
  have hmonth : Date.Numeral 2 d.month (digits d.month) :=
    Date.numeral_digits Nat.two_pos d.month_lt
  have hday : Date.Numeral 2 d.day (digits d.day) := Date.numeral_digits Nat.two_pos d.day_lt
  cases layout with
  | yearSlash => exact textDate?_yearFirst hfirst hlast d.numeral_month d.numeral_day
  | yearDash => exact textDate?_yearDash hfirst hlast
  | monthSlash => exact textDate?_monthFirst hfirst hlast d.numeral_month d.numeral_day
  | yearShort => exact textDate?_yearFirst hfirst hlast hmonth hday
  | monthShort => exact textDate?_monthFirst hfirst hlast hmonth hday

/-! ## Cells -/

/-- **A TEXT THAT IS NO NUMBER** is read if it is a date of the supported range.
    Serials are tried first, so a text has to be no number before its layout counts. -/
theorem read_dateTime_iff {info : ColumnInfo} {text : String} {v : Value}
    (h : Binary64.read? (trim text.toList) = none) :
    Cell.read .dateTime info text = .ok v
      ↔ ∃ d, textDate? (trim text.toList) = some d ∧ isSupported d = true
        ∧ v = .moment { date := d } := by
  rw [Cell.read, moment_of_no_number h]
  -- no number, so that only the layouts are left
  cases hdate : textDate? (trim text.toList) with
  | none =>
      constructor
      · intro hread
        cases hread
      · rintro ⟨_, hdate, -⟩
        cases hdate
  | some d =>
      constructor
      · intro hread
        dsimp only at hread
        split at hread
        case isTrue hsupported =>
          cases hread
          exact ⟨d, rfl, hsupported, rfl⟩
        case isFalse => cases hread
      · rintro ⟨_, hd, hsupported, rfl⟩
        cases hd
        exact congrArg _ (if_pos hsupported)

/-- **TEXT DATES ARE READ BACK**: a date of the supported range in any of the layouts, with any
    blanks around it, is read as the same date at midnight. -/
theorem read_write (layout : Date.Layout) {d : Date} (hfirst : 1753 ≤ d.year)
    (hlast : d.year ≤ 9999) {pre post : List Char} (hpre : Blank pre) (hpost : Blank post)
    (info : ColumnInfo) :
    Cell.read .dateTime info (String.ofList (pre ++ layout.write d ++ post))
      = .ok (.moment { date := d }) := by
  have htrim : trim (String.ofList (pre ++ layout.write d ++ post)).toList = layout.write d := by
    rw [String.toList_ofList, trim_padded hpre hpost (layout.solid d)]
  have hnumber : Binary64.read? (layout.write d) = none := by
    obtain ⟨ds, mark, cs, hds, hne, hmark, hwrite⟩ := layout.exists_digits d
    rw [hwrite, Binary64.read?_of_mark hds hne hmark]
  have hsupported : isSupported d = true := by
    rw [isSupported, Bool.and_eq_true, decide_eq_true_eq, decide_eq_true_eq]
    exact ⟨hfirst, hlast⟩
  rw [read_dateTime_iff (by rw [htrim, hnumber]), htrim]
  exact ⟨d, textDate?_write layout (by omega) hlast, hsupported, rfl⟩

/-- The fifth of March 2016. -/
def marchFifth : Date := { year := 2016, month := 3, day := 5 }

/-- A date as it is written by hand, with a tab and a line break around it.  The month
    has one digit, and the blanks are trimmed away before anything is read. -/
theorem read_write_marchFifth :
    1753 ≤ marchFifth.year ∧ marchFifth.year ≤ 9999 ∧ Blank ['\t'] ∧ Blank ['\n']
      ∧ Cell.read .dateTime { name := "Day", dataType := "DateTime" } "\t3/5/2016\n"
        = .ok (.moment { date := marchFifth }) := by
  have htext : String.ofList (['\t'] ++ Date.Layout.monthShort.write marchFifth ++ ['\n'])
      = "\t3/5/2016\n" := by decide +kernel
  refine ⟨by decide, by decide, by decide, by decide, ?_⟩
  rw [← htext]
  exact read_write .monthShort (by decide) (by decide) (by decide) (by decide) _

/-! ## Dashes -/

/-- **DATES WITH DASHES** have ten bytes, and these are the digits of year, month and day, a sign
    of the year at most, and blanks in front.  There are four digits, two and two exactly if there
    is neither a sign nor a blank. -/
theorem read_dashed_iff {info : ColumnInfo} {text : String} {v : Value}
    (hslash : '/' ∉ trim text.toList) (hnumber : Binary64.read? (trim text.toList) = none) :
    (Cell.read .dateTime info text = .ok v
        ↔ (String.ofList (trim text.toList)).utf8ByteSize = 10
          ∧ ∃ d, Date.DashedText d (trim text.toList) ∧ isSupported d = true
            ∧ v = .moment { date := d })
      ∧ (Cell.read .dateTime info text = .ok v →
        (Date.StrictDashes (trim text.toList)
          ↔ '+' ∉ trim text.toList ∧ ∀ c ∈ trim text.toList, isBlank c = false)) := by
  -- without a slash the other two layouts have no mark to find
  have hread : Cell.read .dateTime info text = .ok v
      ↔ (String.ofList (trim text.toList)).utf8ByteSize = 10
        ∧ ∃ d, Date.DashedText d (trim text.toList) ∧ isSupported d = true
          ∧ v = .moment { date := d } := by
    rw [read_dateTime_iff hnumber, textDate?_of_no_slash hslash]
    by_cases hten : (String.ofList (trim text.toList)).utf8ByteSize = 10
    · rw [if_pos hten, and_iff_right hten]
      simp only [Date.read?_dashed_iff]
    · rw [if_neg hten]
      constructor
      · rintro ⟨d, hd, -⟩
        cases hd
      · rintro ⟨h, -⟩
        exact absurd h hten
  -- ten bytes hold a strict date only if nothing but digits and dashes is there
  refine ⟨hread, fun h => ?_⟩
  obtain ⟨hten, d, hd, hsupported, -⟩ := hread.mp h
  rw [isSupported, Bool.and_eq_true, decide_eq_true_eq] at hsupported
  exact hd.strict_iff (by omega) hten

/-- A blank takes the place of a digit of the month.  Ten bytes and two dashes are all
    that is asked of the text, and neither of them keeps the blank out. -/
theorem read_dashed_iff_blank :
    '/' ∉ trim "2016- 3-05".toList ∧ Binary64.read? (trim "2016- 3-05".toList) = none
      ∧ Cell.read .dateTime { name := "Day", dataType := "DateTime" } "2016- 3-05"
        = .ok (.moment { date := marchFifth })
      ∧ ¬ Date.StrictDashes (trim "2016- 3-05".toList) := by
  have hslash : '/' ∉ trim "2016- 3-05".toList := by decide
  have hnumber : Binary64.read? (trim "2016- 3-05".toList) = none := by decide
  have hread : Cell.read .dateTime { name := "Day", dataType := "DateTime" } "2016- 3-05"
      = .ok (.moment { date := marchFifth }) := by decide +kernel
  refine ⟨hslash, hnumber, hread, fun hstrict => ?_⟩
  obtain ⟨-, hblank⟩ := ((read_dashed_iff hslash hnumber).2 hread).mp hstrict
  exact absurd (hblank ' ' (by decide)) (by decide)

end Cell

end Gridbase
