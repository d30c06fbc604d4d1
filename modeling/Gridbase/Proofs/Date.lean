import Gridbase.Date.Reading
import Gridbase.Proofs.Text.Digits

/-! # Written dates, read back

    The text of a date is read, part by part, as the same date (`read?_text`): a year of four
    digits, or one with a sign that says where it ends, and then month and day with two digits
    each.  So no two dates have the same text (`text_inj`).

    What a part reads is described from both sides.  Digits up to a limit are read as their number
    (`Numeral.number?`, `YearText.year?`), with blanks in front of them passed over, and nothing
    else is (`exists_year`, `exists_month`, `exists_day`). -/

namespace Gridbase.Date

open Gridbase.Text

/-! ## Bounds -/

/-- Only the months 1 to 12 have days. -/
theorem month_of_day {year : Int} {month : Nat} (h : 1 ≤ daysInMonth year month) :
    1 ≤ month ∧ month ≤ 12 := by
  match month with
  | 0 => exact nomatch h
  | 1 | 2 | 3 | 4 | 5 | 6 | 7 | 8 | 9 | 10 | 11 | 12 => exact ⟨by decide, by decide⟩
  | _ + 13 => exact nomatch h

/-- No month has more than 31 days. -/
theorem daysInMonth_le (year : Int) (month : Nat) : daysInMonth year month ≤ 31 := by
  -- only February asks for the year
  unfold daysInMonth
  cases isLeapYear year <;> split <;> decide

theorem month_lt (d : Date) : d.month < 10 ^ 2 := by
  obtain ⟨-, hle⟩ := month_of_day (Nat.le_trans d.one_le_day d.day_le)
  omega

theorem day_lt (d : Date) : d.day < 10 ^ 2 := by
  have hday := d.day_le
  have hmonth := daysInMonth_le d.year d.month
  omega

/-! ## Numbers -/

/-- **A NUMBER IS READ** up to the limit of its digits, or up to what is no digit.  What
    follows the number is given back, for the next part to be read from. -/
theorem number?_digits {limit : Nat} {ds rest : List Char} (hds : AllDigits ds) (hne : ds ≠ [])
    (hlimit : ds.length ≤ limit) (hend : ds.length = limit ∨ StopsDigits rest) :
    number? limit (ds ++ rest) = some (ofDigits ds, rest) := by
  have htake : (ds ++ rest).take limit = ds ++ rest.take (limit - ds.length) := by
    rw [List.take_append, List.take_of_length_le hlimit]
  have hstops : StopsDigits (rest.take (limit - ds.length)) := by
    -- the digits end because the limit is reached or because no digit follows
    rcases hend with hfull | hstops
    · rw [hfull, Nat.sub_self]
      exact fun _ h => nomatch h
    · intro c hc
      cases rest with
      | nil => simp at hc
      | cons r rest =>
          cases hroom : limit - ds.length with
          | zero => simp [hroom] at hc
          | succ n =>
              rw [hroom] at hc
              exact hstops c hc
  have hfound : ((ds ++ rest).take limit).takeWhile Char.isDigit = ds := by
    rw [htake, takeWhile_digits hds hstops]
  rw [number?, hfound, List.drop_left]
  simp [hne]

/-- Digits that are taken as a number: some of them, but no more than a limit.  A longer
    run of digits is cut at the limit, and what is left belongs to the next part. -/
structure Numeral (limit n : Nat) (ds : List Char) : Prop where
  digits : AllDigits ds
  ne_nil : ds ≠ []
  length_le : ds.length ≤ limit
  value : ofDigits ds = n

theorem numeral_padded {width n : Nat} (hwidth : 0 < width) (hn : n < 10 ^ width) :
    Numeral width n (padded width n) where
  digits := allDigits_padded width n
  ne_nil := List.append_ne_nil_of_right_ne_nil _ Nat.toDigits_ne_nil
  length_le := Nat.le_of_eq (length_padded hwidth hn)
  value := ofDigits_padded width n

theorem numeral_digits {width n : Nat} (hwidth : 0 < width) (hn : n < 10 ^ width) :
    Numeral width n (Text.digits n) where
  digits := allDigits_digits n
  ne_nil := Nat.toDigits_ne_nil
  length_le := (Nat.length_toDigits_le_iff (by decide) hwidth).mpr hn
  value := ofDigits_digits n

theorem numeral_month (d : Date) : Numeral 2 d.month (padded 2 d.month) :=
  numeral_padded Nat.two_pos d.month_lt

theorem numeral_day (d : Date) : Numeral 2 d.day (padded 2 d.day) :=
  numeral_padded Nat.two_pos d.day_lt

section

variable {limit n : Nat} {cs ds rest : List Char}

/-- The same digits, with another limit. -/
theorem Numeral.widen {limit' : Nat} (h : Numeral limit n ds) (hle : ds.length ≤ limit') :
    Numeral limit' n ds := ⟨h.digits, h.ne_nil, hle, h.value⟩

theorem Numeral.number? (h : Numeral limit n ds) (hend : ds.length = limit ∨ StopsDigits rest) :
    number? limit (ds ++ rest) = some (n, rest) := by
  rw [number?_digits h.digits h.ne_nil h.length_le hend, h.value]

/-- **WHAT IS READ AS A NUMBER** are digits in front of the text. -/
theorem exists_numeral (h : number? limit cs = some (n, rest)) :
    ∃ ds, Numeral limit n ds ∧ cs = ds ++ rest := by
  rw [Date.number?] at h
  have hprefix : (cs.take limit).takeWhile Char.isDigit <+: cs :=
    (List.takeWhile_prefix _).trans (List.take_prefix limit cs)
  have hlength : ((cs.take limit).takeWhile Char.isDigit).length ≤ limit :=
    Nat.le_trans (List.takeWhile_prefix _).length_le (List.length_take_le limit cs)
  generalize hds : (cs.take limit).takeWhile Char.isDigit = ds at h hprefix hlength
  by_cases hempty : ds = []
  · rw [hempty] at h
    cases h
  · rw [if_neg (by simpa using hempty)] at h
    obtain ⟨rfl, rfl⟩ := Prod.mk.inj (Option.some.inj h)
    refine ⟨ds, ⟨?_, hempty, hlength, rfl⟩, (List.prefix_iff_eq_append.mp hprefix).symm⟩
    intro c hc
    rw [← hds] at hc
    exact List.mem_takeWhile_imp hc

end

/-! ## Blanks in front -/

/-- Blanks in front of a digit are passed over, and so is nothing else. -/
theorem trimStart_digits {pre ds rest : List Char} (hpre : Blank pre) (hds : AllDigits ds)
    (hne : ds ≠ []) : trimStart (pre ++ (ds ++ rest)) = ds ++ rest := by
  obtain ⟨c, ds, rfl⟩ := List.exists_cons_of_ne_nil hne
  have hc : isBlank c = false := isBlank_of_isDigit (hds c (List.mem_cons_self ..))
  rw [trimStart, List.dropWhile_append_of_pos hpre, List.cons_append,
    List.dropWhile_cons_of_neg (by simp [hc])]

theorem exists_blank (cs : List Char) : ∃ pre, Blank pre ∧ cs = pre ++ trimStart cs :=
  ⟨cs.takeWhile isBlank, fun _ hc => List.mem_takeWhile_imp hc,
    List.takeWhile_append_dropWhile.symm⟩

/-! ## Years -/

/-- The texts of a year: up to four digits, or a sign and any number of digits.  With a
    sign a year may be negative, or longer than four digits. -/
inductive YearText : Int → List Char → Prop
  | plain {n : Nat} {ds : List Char} (h : Numeral 4 n ds) : YearText n ds
  | plus {limit n : Nat} {ds : List Char} (h : Numeral limit n ds) : YearText n ('+' :: ds)
  | minus {limit n : Nat} {ds : List Char} (h : Numeral limit n ds) : YearText (-n) ('-' :: ds)

theorem yearText_yearText (year : Int) : YearText year (yearText year) := by
  have hsigned (n : Nat) : Numeral (padded 4 n).length n (padded 4 n) :=
    ⟨allDigits_padded 4 n, List.append_ne_nil_of_right_ne_nil _ Nat.toDigits_ne_nil,
      Nat.le_refl _, ofDigits_padded 4 n⟩
  rw [yearText]
  split
  case isTrue hrange =>
    have hplain := YearText.plain
      (numeral_padded (show 0 < 4 by decide) (show year.toNat < 10 ^ 4 by omega))
    rwa [Int.toNat_of_nonneg hrange.1] at hplain
  case isFalse hrange =>
    -- beyond four digits the year has a sign of its own
    by_cases hneg : year < 0
    · have hminus := YearText.minus (hsigned year.natAbs)
      rw [if_pos hneg]
      rwa [show -(year.natAbs : Int) = year by omega] at hminus
    · have hplus := YearText.plus (hsigned year.natAbs)
      rw [if_neg hneg]
      rwa [show (year.natAbs : Int) = year by omega] at hplus

/-- A digit is no sign, so a year that begins with one is read up to its limit. -/
theorem year?_of_digit {c : Char} (hc : c.isDigit = true) (cs : List Char) :
    year? (c :: cs) = (number? 4 (c :: cs)).map fun r => ((r.1 : Int), r.2) := by
  rw [year?]
  · rintro _ ⟨⟩
    exact absurd hc (by decide)
  · rintro _ ⟨⟩
    exact absurd hc (by decide)

section

variable {year : Int} {cs ds rest : List Char}

/-- **A YEAR IS READ**, up to what is no digit. -/
theorem YearText.year? (h : YearText year ds) (hrest : StopsDigits rest) :
    year? (ds ++ rest) = some (year, rest) := by
  cases h with
  | plain h =>
      obtain ⟨c, ds, rfl⟩ := List.exists_cons_of_ne_nil h.ne_nil
      have hread := h.number? (.inr hrest)
      rw [List.cons_append] at hread ⊢
      rw [year?_of_digit (h.digits c (List.mem_cons_self ..)), hread, Option.map_some]
  | plus h | minus h =>
      have hlong := h.widen (List.length_append ▸ Nat.le_add_right _ rest.length)
      rw [List.cons_append, Date.year?, hlong.number? (.inr hrest), Option.map_some]

/-- **WHAT IS READ AS A YEAR** is the text of one. -/
theorem exists_yearText (h : Date.year? cs = some (year, rest)) :
    ∃ ds, YearText year ds ∧ cs = ds ++ rest := by
  rw [Date.year?.eq_def] at h
  split at h
  · obtain ⟨r, hr, hyear⟩ := Option.map_eq_some_iff.mp h
    obtain ⟨rfl, rfl⟩ := Prod.mk.inj hyear
    obtain ⟨ds, hds, rfl⟩ := exists_numeral hr
    exact ⟨'-' :: ds, .minus hds, rfl⟩
  · obtain ⟨r, hr, hyear⟩ := Option.map_eq_some_iff.mp h
    obtain ⟨rfl, rfl⟩ := Prod.mk.inj hyear
    obtain ⟨ds, hds, rfl⟩ := exists_numeral hr
    exact ⟨'+' :: ds, .plus hds, rfl⟩
  · obtain ⟨r, hr, hyear⟩ := Option.map_eq_some_iff.mp h
    obtain ⟨rfl, rfl⟩ := Prod.mk.inj hyear
    obtain ⟨ds, hds, rfl⟩ := exists_numeral hr
    exact ⟨ds, .plain hds, rfl⟩

/-- A year begins with a sign or a digit. -/
theorem YearText.trimStart {pre : List Char} (h : YearText year ds) (hpre : Blank pre) :
    trimStart (pre ++ (ds ++ rest)) = ds ++ rest := by
  cases h with
  | plain h => exact trimStart_digits hpre h.digits h.ne_nil
  | plus h | minus h =>
      rw [Text.trimStart, List.dropWhile_append_of_pos hpre, List.cons_append]
      rfl

end

/-! ## Parts -/

section

variable {fields fields' : Fields} {cs pre ds rest : List Char} {n : Nat} {year : Int}

theorem read?_year (fields : Fields) (h : YearText year ds) (hpre : Blank pre)
    (hrest : StopsDigits rest) :
    Part.year.read? fields (pre ++ (ds ++ rest)) = some ({ fields with year := year }, rest) := by
  rw [Part.read?, h.trimStart hpre, h.year? hrest]
  rfl

theorem read?_month (fields : Fields) (h : Numeral 2 n ds) (hpre : Blank pre)
    (hend : ds.length = 2 ∨ StopsDigits rest) :
    Part.month.read? fields (pre ++ (ds ++ rest)) = some ({ fields with month := n }, rest) := by
  rw [Part.read?, trimStart_digits hpre h.digits h.ne_nil, h.number? hend]
  rfl

theorem read?_day (fields : Fields) (h : Numeral 2 n ds) (hpre : Blank pre)
    (hend : ds.length = 2 ∨ StopsDigits rest) :
    Part.day.read? fields (pre ++ (ds ++ rest)) = some ({ fields with day := n }, rest) := by
  rw [Part.read?, trimStart_digits hpre h.digits h.ne_nil, h.number? hend]
  rfl

/-- A part with blanks in front passes them over and takes what follows. -/
theorem exists_of_trimStart {α : Type} (take : List Char → Option (α × List Char))
    (set : α → Fields)
    (h : (take (trimStart cs)).map (fun r => (set r.1, r.2)) = some (fields', rest)) :
    ∃ pre a, Blank pre ∧ cs = pre ++ trimStart cs ∧ take (trimStart cs) = some (a, rest)
      ∧ fields' = set a := by
  obtain ⟨⟨a, rest'⟩, hread, hfields⟩ := Option.map_eq_some_iff.mp h
  obtain ⟨rfl, rfl⟩ := Prod.mk.inj hfields
  obtain ⟨pre, hpre, hsplit⟩ := exists_blank cs
  exact ⟨pre, a, hpre, hsplit, hread, rfl⟩

/-- **WHAT IS READ OF A PART** are its digits and the blanks in front of them. -/
theorem exists_year (h : Part.year.read? fields cs = some (fields', rest)) :
    ∃ pre ds year, Blank pre ∧ YearText year ds ∧ cs = pre ++ (ds ++ rest)
      ∧ fields' = { fields with year := year } := by
  obtain ⟨pre, year, hpre, hsplit, hread, rfl⟩ :=
    exists_of_trimStart year? (fun year => { fields with year := year }) h
  obtain ⟨ds, hds, hcs⟩ := exists_yearText hread
  exact ⟨pre, ds, year, hpre, hds, hcs ▸ hsplit, rfl⟩

theorem exists_month (h : Part.month.read? fields cs = some (fields', rest)) :
    ∃ pre ds n, Blank pre ∧ Numeral 2 n ds ∧ cs = pre ++ (ds ++ rest)
      ∧ fields' = { fields with month := n } := by
  obtain ⟨pre, n, hpre, hsplit, hread, rfl⟩ :=
    exists_of_trimStart (number? 2) (fun n => { fields with month := n }) h
  obtain ⟨ds, hds, hcs⟩ := exists_numeral hread
  exact ⟨pre, ds, n, hpre, hds, hcs ▸ hsplit, rfl⟩

theorem exists_day (h : Part.day.read? fields cs = some (fields', rest)) :
    ∃ pre ds n, Blank pre ∧ Numeral 2 n ds ∧ cs = pre ++ (ds ++ rest)
      ∧ fields' = { fields with day := n } := by
  obtain ⟨pre, n, hpre, hsplit, hread, rfl⟩ :=
    exists_of_trimStart (number? 2) (fun n => { fields with day := n }) h
  obtain ⟨ds, hds, hcs⟩ := exists_numeral hread
  exact ⟨pre, ds, n, hpre, hds, hcs ▸ hsplit, rfl⟩

/-- What is read of a part is passed on to the next. -/
theorem readFields?_cons {part : Part} (h : part.read? fields cs = some (fields', rest))
    (parts : List Part) :
    readFields? (part :: parts) fields cs = readFields? parts fields' rest := by
  rw [readFields?, h]

theorem exists_readFields? {part : Part} {parts : List Part} {result : Fields}
    (h : readFields? (part :: parts) fields cs = some result) :
    ∃ fields' rest, part.read? fields cs = some (fields', rest)
      ∧ readFields? parts fields' rest = some result := by
  rw [readFields?] at h
  cases hpart : part.read? fields cs with
  | none =>
      rw [hpart] at h
      cases h
  | some r =>
      rw [hpart] at h
      exact ⟨r.1, r.2, rfl, h⟩

end

/-! ## Dates -/

theorem ofCivil?_self (d : Date) : ofCivil? d.year d.month d.day = some d :=
  dif_pos ⟨⟨d.minYear_le, d.le_maxYear⟩, d.one_le_day, d.day_le⟩

/-- A gap in front of a dash, and the dash. -/
theorem readFields?_dash (fields : Fields) (parts : List Part) (rest : List Char) :
    readFields? (.gap :: .mark '-' :: parts) fields ('-' :: rest)
      = readFields? parts fields rest := by
  have hgap : Part.gap.read? fields ('-' :: rest) = some (fields, '-' :: rest) := rfl
  rw [readFields?_cons hgap, readFields?_cons rfl]

/-- **A DATE IS READ BACK** from its text.  The text has a sign if the year is out of
    the range of four digits, and the reader takes it. -/
theorem read?_text (d : Date) : read? spaced d.text = some d := by
  have hdash (rest : List Char) : StopsDigits ('-' :: rest) := stopsDigits_cons rfl rest
  have hyear (fields : Fields) (rest : List Char) :
      Part.year.read? fields (yearText d.year ++ '-' :: rest)
        = some ({ fields with year := d.year }, '-' :: rest) := by
    rw [← List.nil_append (yearText d.year ++ _),
      read?_year fields (yearText_yearText d.year) blank_nil (hdash rest)]
  have hmonth (fields : Fields) (rest : List Char) :
      Part.month.read? fields (padded 2 d.month ++ '-' :: rest)
        = some ({ fields with month := d.month }, '-' :: rest) := by
    rw [← List.nil_append (padded 2 d.month ++ _),
      read?_month fields d.numeral_month blank_nil (.inr (hdash rest))]
  have hday (fields : Fields) :
      Part.day.read? fields (padded 2 d.day ++ []) = some ({ fields with day := d.day }, []) := by
    rw [← List.nil_append (padded 2 d.day ++ _),
      read?_day fields d.numeral_day blank_nil (.inl (length_padded Nat.two_pos d.day_lt))]
  -- the five parts of the layout one after the other, without a gap anywhere
  have hfields : readFields? spaced ⟨0, 0, 0⟩ d.text = some ⟨d.year, d.month, d.day⟩ := by
    rw [text, List.append_assoc, List.cons_append, spaced, readFields?_cons (hyear _ _),
      readFields?_dash, readFields?_cons (hmonth _ _), readFields?_dash,
      ← List.append_nil (padded 2 d.day), readFields?_cons (hday _)]
    rfl
  rw [read?, hfields, Option.bind_some, ofCivil?_self]

/-- Dates with one text are one date. -/
theorem text_inj {a b : Date} (h : a.text = b.text) : a = b := by
  have hread : read? spaced a.text = some b := by rw [h, read?_text]
  exact Option.some.inj ((read?_text a).symm.trans hread)

end Gridbase.Date
