import Gridbase.Cell

/-! # Cells — what a reader accepts

    Each of the five readers has bounds of its own.  `Value.Fits` states them for
    the value alone, and whatever `Cell.read` accepts keeps them (`fits_of_read`).

    The reader of decimals counts the digits of the coefficient; the number that is
    meant is that of the digits before the point, which `wholeDigits` counts. -/

namespace Gridbase

open Gridbase.Text

namespace Decimal

/-- The digits before the point, at least one.  A number below one has the digit zero
    there, and it counts like any other. -/
def wholeDigits (d : Decimal) : Nat := (digits (d.coefficient.natAbs / 10 ^ d.scale)).length

/-- There are no more digits before the point than the reader counts. -/
theorem wholeDigits_le (d : Decimal) : d.wholeDigits ≤ Cell.integerDigits d := by
  -- the coefficient has at most `integerDigits + scale` digits; division drops `scale` of them
  have hpos : 0 < Cell.integerDigits d := Nat.le_max_right _ _
  have hcount : (Nat.toDigits 10 d.coefficient.natAbs).length
      ≤ Cell.integerDigits d + d.scale := by
    show d.digitCount ≤ max (d.digitCount - d.scale) 1 + d.scale
    omega
  have hlt : d.coefficient.natAbs < 10 ^ (Cell.integerDigits d + d.scale) :=
    (Nat.length_toDigits_le_iff (by decide) (Nat.add_pos_left hpos _)).mp hcount
  rw [wholeDigits, digits, Nat.length_toDigits_le_iff (by decide) hpos]
  rw [Nat.pow_add] at hlt
  exact Nat.div_lt_of_lt_mul (Nat.mul_comm _ _ ▸ hlt)

end Decimal

/-! ## Bounds -/

/-- A value of a type that keeps the bounds of its column.  A bound that the metadata
    does not give bounds nothing, and the room of a decimal is asked for only where
    precision and scale are both given. -/
inductive Value.Fits (info : ColumnInfo) : DataType → Value → Prop
  | integer {n : Int64} (low : -2 ^ 31 ≤ n.toInt) (high : n.toInt < 2 ^ 31) :
      Fits info .integer (.int n)
  | decimal {d : Decimal}
      (room : ∀ p s, info.precision = some p → info.scale = some s →
        d.scale ≤ s.toNat ∧ d.wholeDigits + d.scale ≤ p.toNat) :
      Fits info .decimal (.decimal d)
  | dateTime {m : Moment} (low : 1753 ≤ m.date.year) (high : m.date.year ≤ 9999) :
      Fits info .dateTime (.moment m)
  | boolean (b : Bool) : Fits info .boolean (.bool b)
  | string {s : String} (short : ∀ limit, info.length = some limit →
      s.toList.length ≤ limit.toNat) : Fits info .string (.text s)

namespace Cell

/-- An integer has 32 bits. -/
theorem fits_of_integer {info : ColumnInfo} {cs : List Char} {v : Value}
    (h : integer? cs = some v) : Value.Fits info .integer v := by
  obtain ⟨z, -, hz⟩ := Option.bind_eq_some_iff.mp h
  by_cases hrange : (-2 ^ 31 ≤ z && z < 2 ^ 31) = true
  · rw [if_pos hrange] at hz
    cases hz
    rw [Bool.and_eq_true, decide_eq_true_eq, decide_eq_true_eq] at hrange
    have htoInt : (Int64.ofInt z).toInt = z :=
      Int64.toInt_ofInt_of_le (by omega) (by omega)
    exact .integer (by rw [htoInt]; exact hrange.1) (by rw [htoInt]; exact hrange.2)
  · rw [if_neg hrange] at hz
    exact nomatch hz

/-- A decimal has room in its column. -/
theorem fits_of_decimal {info : ColumnInfo} {cs : List Char} {d : Decimal}
    (h : decimal? info.precision info.scale cs = some d) :
    Value.Fits info .decimal (.decimal d) := by
  obtain ⟨e, -, he⟩ := Option.bind_eq_some_iff.mp h
  by_cases hroom : hasRoom info.precision info.scale e = true
  · rw [if_pos hroom] at he
    cases he
    refine .decimal fun p s hp hs => ?_
    rw [hp, hs, hasRoom, Bool.and_eq_true, decide_eq_true_eq, decide_eq_true_eq] at hroom
    have := d.wholeDigits_le
    omega
  · rw [if_neg hroom] at he
    exact nomatch he

/-- A moment of a text that is no number is the start of a date. -/
theorem moment_of_no_number {cs : List Char} (h : Binary64.read? (trim cs) = none) :
    moment cs = match textDate? (trim cs) with
      | some d => if isSupported d then .ok { date := d } else .error .dateOutOfRange
      | none => .error .notDate := by
  simp only [moment, anyMoment, h]
  cases textDate? (trim cs) <;> rfl

/-- A moment belongs to the supported range. -/
theorem fits_of_moment {info : ColumnInfo} {cs : List Char} {m : Moment}
    (h : moment cs = .ok m) : Value.Fits info .dateTime (.moment m) := by
  rw [moment] at h
  cases hany : anyMoment cs with
  | error fault =>
      rw [hany] at h
      exact nomatch h
  | ok found =>
      rw [hany] at h
      have hfound : (if isSupported found.date then Except.ok found
        else Except.error CellFault.dateOutOfRange) = Except.ok m := h
      -- only the range is left to look at: the moment itself is the one that was found
      by_cases hrange : isSupported found.date = true
      · rw [if_pos hrange] at hfound
        cases hfound
        rw [isSupported, Bool.and_eq_true, decide_eq_true_eq, decide_eq_true_eq] at hrange
        exact .dateTime hrange.1 hrange.2
      · rw [if_neg hrange] at hfound
        exact nomatch hfound

/-- A text is not longer than its column.  The length counts characters, not bytes. -/
theorem fits_of_length {info : ColumnInfo} {text : String} {v : Value}
    (h : Cell.read .string info text = .ok v) : Value.Fits info .string v := by
  cases hlength : info.length with
  | none =>
      rw [Cell.read, hlength] at h
      cases h
      exact .string fun limit hlimit => nomatch hlength ▸ hlimit
  -- the limit of the reader is the limit that the column states
  | some n =>
      rw [Cell.read, hlength] at h
      have hread : (if n.toNat < text.toList.length then Except.error (CellFault.tooLong n)
        else Except.ok (Value.text text)) = Except.ok v := h
      by_cases hlong : n.toNat < text.toList.length
      · rw [if_pos hlong] at hread
        exact nomatch hread
      · rw [if_neg hlong] at hread
        cases hread
        refine .string fun limit hlimit => ?_
        rw [hlength, Option.some.injEq] at hlimit
        rw [← hlimit]
        exact Nat.not_lt.mp hlong

/-- A reader that gives nothing gives a fault. -/
private theorem elim_eq_ok {α : Type} (found : Option α) {fault : CellFault}
    {f : α → Except CellFault Value} {v : Value}
    (h : found.elim (.error fault) f = .ok v) : ∃ a, found = some a ∧ f a = .ok v := by
  cases found with
  | none => exact nomatch h
  | some a => exact ⟨a, rfl, h⟩

/-- **WHAT IS READ FITS** its column.  Each type checks its own bounds, so this goes by
    the type; decimals are the only ones with two. -/
theorem fits_of_read {type : DataType} {info : ColumnInfo} {text : String} {v : Value}
    (h : Cell.read type info text = .ok v) : Value.Fits info type v := by
  -- one case for each type, and in each the reader of that type
  cases type with
  | integer =>
      obtain ⟨found, hfound, hv⟩ := elim_eq_ok (integer? text.toList) h
      cases hv
      exact fits_of_integer hfound
  | decimal =>
      obtain ⟨found, hfound, hv⟩ := elim_eq_ok (decimal? _ _ text.toList) h
      cases hv
      exact fits_of_decimal hfound
  | dateTime =>
      rw [Cell.read] at h
      cases hfound : moment text.toList with
      | error fault =>
          rw [hfound] at h
          exact nomatch h
      | ok found =>
          rw [hfound] at h
          cases h
          exact fits_of_moment hfound
  | boolean =>
      obtain ⟨found, hfound, hv⟩ := elim_eq_ok (boolean? text.toList) h
      cases hv
      exact .boolean found
  | string => exact fits_of_length h

end Cell

end Gridbase
