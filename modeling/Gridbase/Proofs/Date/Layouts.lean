import Gridbase.Proofs.Date

/-! # Layouts of dates

    A date is written with its year first or its month first, and with or without zeros that fill
    up month and day.  The layout that a date is written in reads the date (`read?_yearFirst`,
    `read?_monthFirst`).  The other layouts do not read it as another date: they miss their mark
    (`read?_of_other_mark`), or they find digits left at the end (`read?_slashed_monthFirst`).

    Conversely, what the layout with dashes reads are the digits of a date, with blanks in front
    of them and a sign of the year at most (`read?_dashed_iff`).  Ten bytes of them have two digits
    of month and day unless one of the others takes their place (`DashedText.strict_iff`). -/

namespace Gridbase.Date

open Gridbase.Text

/-! ## Writing -/

/-- Year, month and day with a mark between them.  The year has four digits; how month
    and day are written is left open. -/
def yearFirst (mark : Char) (write : Nat → List Char) (d : Date) : List Char :=
  padded 4 d.year.toNat ++ mark :: (write d.month ++ mark :: write d.day)

/-- Month, day and year with slashes between them.  The year has four digits; how month
    and day are written is left open. -/
def monthFirstText (write : Nat → List Char) (d : Date) : List Char :=
  write d.month ++ '/' :: (write d.day ++ '/' :: padded 4 d.year.toNat)

/-- A layout that dates are written in.  The short ones have no zeros in front of the
    month and the day. -/
inductive Layout
  /-- `yyyy/MM/dd` -/
  | yearSlash
  /-- `yyyy-MM-dd` -/
  | yearDash
  /-- `MM/dd/yyyy` -/
  | monthSlash
  /-- `yyyy/M/d` -/
  | yearShort
  /-- `M/d/yyyy` -/
  | monthShort
deriving DecidableEq

/-- The text of a date of four digits of the year. -/
def Layout.write (d : Date) : Layout → List Char
  | .yearSlash => d.yearFirst '/' (padded 2)
  | .yearDash => d.yearFirst '-' (padded 2)
  | .monthSlash => d.monthFirstText (padded 2)
  | .yearShort => d.yearFirst '/' digits
  | .monthShort => d.monthFirstText digits

/-- A layout writes digits and marks. -/
theorem Layout.isDigit_or_mark {layout : Layout} {d : Date} {c : Char} (h : c ∈ layout.write d) :
    c.isDigit = true ∨ c = '/' ∨ c = '-' := by
  have hpadded (width n : Nat) (hc : c ∈ padded width n) : c.isDigit = true :=
    allDigits_padded width n c hc
  have hdigits (n : Nat) (hc : c ∈ digits n) : c.isDigit = true := allDigits_digits n c hc
  cases layout <;>
    simp only [write, yearFirst, monthFirstText, List.mem_append, List.mem_cons] at h <;> grind

/-- Every text begins with digits and a mark. -/
theorem Layout.exists_digits (layout : Layout) (d : Date) :
    ∃ ds mark cs, AllDigits ds ∧ ds ≠ [] ∧ (mark = '/' ∨ mark = '-')
      ∧ layout.write d = ds ++ mark :: cs := by
  have hne (width n : Nat) : padded width n ≠ [] :=
    List.append_ne_nil_of_right_ne_nil _ Nat.toDigits_ne_nil
  cases layout with
  | yearSlash => exact ⟨_, _, _, allDigits_padded 4 _, hne 4 _, .inl rfl, rfl⟩
  | yearDash => exact ⟨_, _, _, allDigits_padded 4 _, hne 4 _, .inr rfl, rfl⟩
  | monthSlash => exact ⟨_, _, _, allDigits_padded 2 _, hne 2 _, .inl rfl, rfl⟩
  | yearShort => exact ⟨_, _, _, allDigits_padded 4 _, hne 4 _, .inl rfl, rfl⟩
  | monthShort => exact ⟨_, _, _, allDigits_digits _, Nat.toDigits_ne_nil, .inl rfl, rfl⟩

theorem Layout.solid (layout : Layout) (d : Date) : Solid (layout.write d) := by
  obtain ⟨ds, mark, cs, -, hne, -, hwrite⟩ := layout.exists_digits d
  refine solid_of_no_blank (hwrite ▸ List.append_ne_nil_of_left_ne_nil hne _) fun c hc => ?_
  rcases isDigit_or_mark hc with hdigit | rfl | rfl
  · exact isBlank_of_isDigit hdigit
  · rfl
  · rfl

/-! ## Reading -/

theorem readFields?_mark (c : Char) (parts : List Part) (fields : Fields) (cs : List Char) :
    readFields? (.mark c :: parts) fields (c :: cs) = readFields? parts fields cs := by
  have hread : (Part.mark c).read? fields (c :: cs) = some (fields, cs) := if_pos rfl
  rw [readFields?_cons hread]

section

variable {d : Date} {y m k : List Char}

/-- **YEAR FIRST**: the digits of a date are read, and blanks in front of them passed over. -/
theorem read?_yearFirst {mark : Char} (hmark : mark.isDigit = false) {a b c : List Char}
    (ha : Blank a) (hb : Blank b) (hc : Blank c) (hy : YearText d.year y)
    (hm : Numeral 2 d.month m) (hk : Numeral 2 d.day k) :
    read? [.year, .mark mark, .month, .mark mark, .day]
      (a ++ (y ++ mark :: (b ++ (m ++ mark :: (c ++ k))))) = some d := by
  have hstops (cs : List Char) := stopsDigits_cons hmark cs
  have hlast := read?_day ⟨d.year, d.month, 0⟩ hk hc (.inr stopsDigits_nil)
  rw [List.append_nil] at hlast
  rw [read?, readFields?_cons (read?_year _ hy ha (hstops _)), readFields?_mark,
    readFields?_cons (read?_month _ hm hb (.inr (hstops _))), readFields?_mark,
    readFields?_cons hlast]
  exact ofCivil?_self d

/-- **MONTH FIRST**: the digits of a date are read. -/
theorem read?_monthFirst (hy : YearText d.year y) (hm : Numeral 2 d.month m)
    (hk : Numeral 2 d.day k) : read? monthFirst (m ++ '/' :: (k ++ '/' :: y)) = some d := by
  have hstops (cs : List Char) : StopsDigits ('/' :: cs) := stopsDigits_cons rfl cs
  have hfirst := read?_month ⟨0, 0, 0⟩ hm blank_nil (.inr (hstops (k ++ '/' :: y)))
  have hsecond := read?_day ⟨0, d.month, 0⟩ hk blank_nil (.inr (hstops y))
  have hlast := read?_year ⟨0, d.month, d.day⟩ hy blank_nil stopsDigits_nil
  rw [List.nil_append] at hfirst hsecond
  rw [List.nil_append, List.append_nil] at hlast
  rw [read?, monthFirst, readFields?_cons hfirst, readFields?_mark, readFields?_cons hsecond,
    readFields?_mark, readFields?_cons hlast]
  exact ofCivil?_self d

/-- A year followed by another mark is not read. -/
theorem read?_of_other_mark {year : Int} {mark other : Char} (hy : YearText year y)
    (hother : other.isDigit = false) (hne : mark ≠ other) (parts : List Part) (cs : List Char) :
    read? (.year :: .mark mark :: parts) (y ++ other :: cs) = none := by
  have hyear := read?_year ⟨0, 0, 0⟩ hy blank_nil (stopsDigits_cons hother cs)
  have hmark : (Part.mark mark).read? { (⟨0, 0, 0⟩ : Fields) with year := year } (other :: cs)
      = none := if_neg hne
  rw [List.nil_append] at hyear
  rw [read?, readFields?_cons hyear, readFields?, hmark]
  rfl

/-- A month is no year of this layout: the year at the end is longer than a day.  So the
    layouts with the year in front never read a date that ends with its year. -/
theorem read?_slashed_monthFirst {year month day : Nat} (hy : Numeral 4 year y)
    (hfull : y.length = 4) (hm : Numeral 2 month m) (hk : Numeral 2 day k) :
    read? slashed (m ++ '/' :: (k ++ '/' :: y)) = none := by
  have hstops (cs : List Char) : StopsDigits ('/' :: cs) := stopsDigits_cons rfl cs
  have hfirst := read?_year ⟨0, 0, 0⟩
    (.plain (hm.widen (Nat.le_trans hm.length_le (by decide)))) blank_nil
    (hstops (k ++ '/' :: y))
  have hsecond := read?_month ⟨month, 0, 0⟩ hk blank_nil (.inr (hstops y))
  -- two digits of the year are taken for the day
  have hday : Numeral 2 (ofDigits (y.take 2)) (y.take 2) :=
    ⟨fun c hc => hy.digits c (List.mem_of_mem_take hc), List.ne_nil_of_length_pos (by simp [hfull]),
      List.length_take_le 2 y, rfl⟩
  have hlast := read?_day ⟨month, day, 0⟩ hday blank_nil (.inl (by simp [hfull]) :
    _ ∨ StopsDigits (y.drop 2))
  obtain ⟨c, rest, hrest⟩ := List.exists_cons_of_ne_nil
    (List.ne_nil_of_length_pos (show 0 < (y.drop 2).length by simp [hfull]))
  rw [List.nil_append] at hfirst hsecond
  rw [List.nil_append, List.take_append_drop] at hlast
  rw [read?, slashed, readFields?_cons hfirst, readFields?_mark, readFields?_cons hsecond,
    readFields?_mark, readFields?_cons hlast, hrest]
  rfl

end

/-! ## Bytes -/

section

variable {y m k : List Char} (hy : AllDigits y) (hm : AllDigits m) (hk : AllDigits k)

include hy hm hk

theorem isDigit_or_dash : ∀ c ∈ y ++ '-' :: (m ++ '-' :: k), c.isDigit = true ∨ c = '-' := by
  intro c hc
  simp only [List.mem_append, List.mem_cons] at hc
  rcases hc with hc | hc | hc | hc | hc
  · exact .inl (hy c hc)
  · exact .inr hc
  · exact .inl (hm c hc)
  · exact .inr hc
  · exact .inl (hk c hc)

/-- Digits and dashes have one byte each. -/
theorem utf8ByteSize_dashes : (String.ofList (y ++ '-' :: (m ++ '-' :: k))).utf8ByteSize
    = y.length + (m.length + (k.length + 1) + 1) := by
  have hascii (c : Char) (hc : c ∈ y ++ '-' :: (m ++ '-' :: k)) : c.val ≤ 127 := by
    rcases isDigit_or_dash hy hm hk c hc with hdigit | rfl
    · exact ascii_of_isDigit hdigit
    · decide
  rw [utf8ByteSize_of_ascii hascii, List.length_append, List.length_cons, List.length_append,
    List.length_cons]

end

/-! ## Years of four digits -/

section

variable {d : Date} {write : Nat → List Char} (hfirst : 0 ≤ d.year) (hlast : d.year ≤ 9999)

include hfirst hlast

theorem numeral_year : Numeral 4 d.year.toNat (padded 4 d.year.toNat) :=
  numeral_padded (show 0 < 4 by decide) (show d.year.toNat < 10 ^ 4 by omega)

theorem length_year : (padded 4 d.year.toNat).length = 4 := length_padded (by decide) (by omega)

theorem yearText_year : YearText d.year (padded 4 d.year.toNat) := by
  have h := YearText.plain (numeral_year hfirst hlast)
  rwa [Int.toNat_of_nonneg hfirst] at h

theorem Layout.utf8ByteSize_yearDash :
    (String.ofList (Layout.yearDash.write d)).utf8ByteSize = 10 := by
  have hbytes := utf8ByteSize_dashes (allDigits_padded 4 d.year.toNat)
    (allDigits_padded 2 d.month) (allDigits_padded 2 d.day)
  rw [length_year hfirst hlast, length_padded Nat.two_pos d.month_lt,
    length_padded Nat.two_pos d.day_lt] at hbytes
  exact hbytes

variable (hmonth : Numeral 2 d.month (write d.month)) (hday : Numeral 2 d.day (write d.day))

include hmonth hday

theorem read?_yearFirst_write {mark : Char} (hmark : mark.isDigit = false) :
    read? [.year, .mark mark, .month, .mark mark, .day] (d.yearFirst mark write) = some d := by
  have hread := read?_yearFirst hmark blank_nil blank_nil blank_nil (yearText_year hfirst hlast)
    hmonth hday
  rwa [List.nil_append, List.nil_append, List.nil_append] at hread

end

/-! ## What is read -/

section

variable {fields fields' : Fields} {cs rest : List Char} {mark : Char}

theorem exists_mark (h : (Part.mark mark).read? fields cs = some (fields', rest)) :
    cs = mark :: rest ∧ fields' = fields := by
  cases cs with
  | nil => cases h
  | cons c cs =>
      have hread : (if mark = c then some (fields, cs) else none) = some (fields', rest) := h
      by_cases hc : mark = c
      · rw [if_pos hc] at hread
        obtain ⟨rfl, rfl⟩ := Prod.mk.inj (Option.some.inj hread)
        exact ⟨by rw [hc], rfl⟩
      · rw [if_neg hc] at hread
        cases hread

theorem readFields?_nil (h : readFields? [] fields cs = some fields') :
    cs = [] ∧ fields' = fields := by
  cases cs with
  | nil => exact ⟨rfl, (Option.some.inj h).symm⟩
  | cons c cs => cases h

/-- A part leaves the end of the text. -/
theorem Part.suffix {part : Part} (h : part.read? fields cs = some (fields', rest)) :
    rest <:+ cs := by
  -- every part takes something off the front, if only blanks
  cases part with
  | year =>
      obtain ⟨pre, ds, -, -, -, rfl, -⟩ := exists_year h
      exact ⟨pre ++ ds, List.append_assoc ..⟩
  | month =>
      obtain ⟨pre, ds, -, -, -, rfl, -⟩ := exists_month h
      exact ⟨pre ++ ds, List.append_assoc ..⟩
  | day =>
      obtain ⟨pre, ds, -, -, -, rfl, -⟩ := exists_day h
      exact ⟨pre ++ ds, List.append_assoc ..⟩
  | mark c =>
      obtain ⟨rfl, -⟩ := exists_mark h
      exact List.suffix_cons c rest
  | gap =>
      obtain ⟨-, rfl⟩ := Prod.mk.inj (Option.some.inj h)
      exact List.dropWhile_suffix _

/-- **A MARK OF THE LAYOUT** stands in what it reads. -/
theorem mem_of_readFields? {parts : List Part} (h : readFields? parts fields cs = some fields')
    (hmark : .mark mark ∈ parts) : mark ∈ cs := by
  induction parts generalizing fields cs with
  | nil => cases hmark
  | cons part parts ih =>
      obtain ⟨middle, rest, hpart, hrest⟩ := exists_readFields? h
      rcases List.mem_cons.mp hmark with rfl | hlater
      · rw [(exists_mark hpart).1]
        exact List.mem_cons_self ..
      · exact (Part.suffix hpart).subset (ih hrest hlater)

theorem mem_of_read? {layout : List Part} {d : Date} (h : read? layout cs = some d)
    (hmark : .mark mark ∈ layout) : mark ∈ cs := by
  obtain ⟨fields, hfields, -⟩ := Option.bind_eq_some_iff.mp h
  exact mem_of_readFields? hfields hmark

end

theorem ofCivil?_eq_some {year : Int} {month day : Nat} {d : Date}
    (h : ofCivil? year month day = some d) : d.year = year ∧ d.month = month ∧ d.day = day := by
  rw [ofCivil?] at h
  split at h
  · obtain rfl := Option.some.inj h
    exact ⟨rfl, rfl, rfl⟩
  · cases h

/-- The texts of a date with dashes: the digits of year, month and day, with blanks in front of
    each of them, and a sign of the year. -/
inductive DashedText (d : Date) : List Char → Prop
  | mk {a b c y m k : List Char} (ha : Blank a) (hb : Blank b) (hc : Blank c)
      (hy : YearText d.year y) (hm : Numeral 2 d.month m) (hk : Numeral 2 d.day k) :
      DashedText d (a ++ (y ++ '-' :: (b ++ (m ++ '-' :: (c ++ k)))))

/-- **WHAT IS READ WITH DASHES** are the texts of the date, and no others.  `DashedText`
    allows blanks in front of each part, a sign and short numbers, as the reader does.
    -/
theorem read?_dashed_iff {cs : List Char} {d : Date} :
    read? dashed cs = some d ↔ DashedText d cs := by
  constructor
  · intro h
    -- part by part, with what each of them leaves to the next
    obtain ⟨result, hresult, hdate⟩ := Option.bind_eq_some_iff.mp h
    obtain ⟨_, _, hyear, hresult⟩ := exists_readFields? hresult
    obtain ⟨a, y, year, ha, hy, rfl, rfl⟩ := exists_year hyear
    obtain ⟨_, _, hmark, hresult⟩ := exists_readFields? hresult
    obtain ⟨rfl, rfl⟩ := exists_mark hmark
    obtain ⟨_, _, hmonth, hresult⟩ := exists_readFields? hresult
    obtain ⟨b, m, month, hb, hm, rfl, rfl⟩ := exists_month hmonth
    obtain ⟨_, _, hmark, hresult⟩ := exists_readFields? hresult
    obtain ⟨rfl, rfl⟩ := exists_mark hmark
    obtain ⟨_, _, hday, hresult⟩ := exists_readFields? hresult
    obtain ⟨c, k, day, hc, hk, rfl, rfl⟩ := exists_day hday
    obtain ⟨rfl, rfl⟩ := readFields?_nil hresult
    obtain ⟨rfl, rfl, rfl⟩ := ofCivil?_eq_some hdate
    rw [List.append_nil]
    exact .mk ha hb hc hy hm hk
  · rintro ⟨ha, hb, hc, hy, hm, hk⟩
    exact read?_yearFirst rfl ha hb hc hy hm hk

/-! ## Strict dates -/

/-- Four digits, two digits and two digits, with dashes between them.  This is stricter
    than the reader, which takes blanks for some of the digits. -/
def StrictDashes (cs : List Char) : Prop :=
  ∃ y m k, AllDigits y ∧ AllDigits m ∧ AllDigits k ∧ y.length = 4 ∧ m.length = 2 ∧ k.length = 2
    ∧ cs = y ++ '-' :: (m ++ '-' :: k)

/-- **TEN BYTES** of a date after the year 0 are a strict date exactly if there is no sign among
    them, and no blank. -/
theorem DashedText.strict_iff {d : Date} {cs : List Char} (h : DashedText d cs)
    (hyear : 0 < d.year) (hten : (String.ofList cs).utf8ByteSize = 10) :
    StrictDashes cs ↔ '+' ∉ cs ∧ ∀ c ∈ cs, isBlank c = false := by
  constructor
  · -- digits and dashes only: neither a sign nor a blank among them
    rintro ⟨y, m, k, hy, hm, hk, -, -, -, rfl⟩
    refine ⟨fun hplus => ?_, fun c hc => ?_⟩
    · rcases isDigit_or_dash hy hm hk '+' hplus with hdigit | hdash
      · cases hdigit
      · cases hdash
    · rcases isDigit_or_dash hy hm hk c hc with hdigit | rfl
      · exact isBlank_of_isDigit hdigit
      · rfl
  · rintro ⟨hplus, hblank⟩
    obtain @⟨a, b, c, y, m, k, ha, hb, hc, hy, hm, hk⟩ := h
    -- without blanks the three gaps are empty
    have hempty {gap : List Char} (hgap : Blank gap)
        (hsub : gap ⊆ a ++ (y ++ '-' :: (b ++ (m ++ '-' :: (c ++ k))))) : gap = [] := by
      refine List.eq_nil_iff_forall_not_mem.mpr fun e he => ?_
      have hsolid := hblank e (hsub he)
      rw [hgap e he] at hsolid
      cases hsolid
    obtain rfl := hempty ha (by simp)
    obtain rfl := hempty hb (by intro e; simp +contextual)
    obtain rfl := hempty hc (by intro e; simp +contextual)
    simp only [List.nil_append] at hplus hten ⊢
    generalize d.year = year at hy hyear
    -- a year with a plus sign is excluded, and one with a minus sign is not positive
    cases hy with
    | plus h => exact absurd (List.mem_append_left _ (List.mem_cons_self ..)) hplus
    | minus h => omega
    | plain h =>
        rw [utf8ByteSize_dashes h.digits hm.digits hk.digits] at hten
        have hfour := h.length_le
        have hmonth := hm.length_le
        have hday := hk.length_le
        exact ⟨y, m, k, h.digits, hm.digits, hk.digits, by omega, by omega, by omega, rfl⟩

end Gridbase.Date
