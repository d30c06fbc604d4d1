import Gridbase.Cell
import Gridbase.Proofs.Decimal.Exactness
import Mathlib.Algebra.Order.Field.Basic
import Mathlib.Tactic.NormNum
import Mathlib.Tactic.Positivity

/-! # Decimal cells

    A cell is a number of its column if its digits as they are written have room there
    (`Cell.accepts_decimal_iff`): the precision bounds all of them, with one at least before the
    point, and the scale those behind it.  Whether the column can store the number is another
    question (`Storable`): places of the scale that a text does not use are free for its digits
    before the point.

    What a cell is read as is the number that it denotes, if nothing was rounded on the way
    (`Cell.decimal_exact_iff`). -/

namespace Gridbase.Cell

open Gridbase.Decimal

/-- The text of a number, without blanks around it and commas in it.  Commas are taken
    away wherever they stand, not only between groups of three digits. -/
def bare (text : String) : List Char := (Text.trim text.toList).filter (· != ',')

theorem decimal?_eq (precision scale : Option UInt8) (text : String) :
    decimal? precision scale text.toList = (read? (bare text)).bind fun d =>
      if hasRoom precision scale d then some d else none := rfl

/-- A decimal is accepted if it is read and has room. -/
theorem read_decimal_iff {info : ColumnInfo} {text : String} {v : Value} :
    Cell.read .decimal info text = .ok v ↔
      ∃ d, read? (bare text) = some d ∧ hasRoom info.precision info.scale d = true
        ∧ v = .decimal d := by
  rw [Cell.read, decimal?_eq]
  cases read? (bare text) with
  | none => simp
  | some d =>
      cases hroom : hasRoom info.precision info.scale d with
      | false => simp [hroom]
      | true =>
          simp only [Option.bind_some, hroom, if_pos, Option.elim_some, Except.ok.injEq]
          constructor
          · rintro rfl
            exact ⟨d, rfl, hroom, rfl⟩
          · rintro ⟨d', hd, -, rfl⟩
            rw [Option.some.inj hd]

/-! ## Room -/

/-- A number is below a power of ten if its coefficient is below the one with its places. -/
theorem abs_number_lt_iff (d : Decimal) {p : Nat} (h : d.scale ≤ p) :
    |d.number| < 10 ^ (p - d.scale) ↔ d.coefficient.natAbs < 10 ^ p := by
  have hpow : (0 : ℚ) < 10 ^ d.scale := by positivity
  have hsplit : (10 : ℚ) ^ (p - d.scale) * 10 ^ d.scale = 10 ^ p := by
    rw [← pow_add, Nat.sub_add_cancel h]
  rw [number, abs_div, abs_of_pos hpow, div_lt_iff₀ hpow, hsplit, ← Int.cast_abs,
    Int.abs_eq_natAbs]
  norm_cast

/-- **A DECIMAL HAS ROOM** if its places do and its number is small enough for the digits that
    are left of the precision. -/
theorem hasRoom_iff {p s : UInt8} {d : Decimal} :
    hasRoom (some p) (some s) d = true ↔
      d.scale ≤ s.toNat ∧ d.scale < p.toNat ∧ |d.number| < 10 ^ (p.toNat - d.scale) := by
  rw [hasRoom, Bool.and_eq_true, decide_eq_true_eq, decide_eq_true_eq, integerDigits]
  constructor
  · rintro ⟨hdigits, hscale⟩
    have hlt : d.scale < p.toNat := by omega
    have hcount : d.digitCount ≤ p.toNat := by omega
    refine ⟨hscale, hlt, (abs_number_lt_iff d hlt.le).mpr ?_⟩
    exact (Nat.length_toDigits_le_iff (by decide) (Nat.zero_lt_of_lt hlt)).mp hcount
  · rintro ⟨hscale, hlt, hnumber⟩
    have hcount : d.digitCount ≤ p.toNat :=
      (Nat.length_toDigits_le_iff (by decide) (Nat.zero_lt_of_lt hlt)).mpr
        ((abs_number_lt_iff d hlt.le).mp hnumber)
    exact ⟨by omega, hscale⟩

/-- **A WRITTEN NUMBER IS ACCEPTED** in a column of stated precision and scale exactly if a
    decimal holds it as it is written and its digits have room: those behind the point in the
    scale, and all of them in the precision, with one at least before the point. -/
theorem accepts_decimal_iff {info : ColumnInfo} {p s : UInt8} {text : String} {w : Written}
    (hp : info.precision = some p) (hs : info.scale = some s) (hw : written? (bare text) = some w)
    (hspaced : spaced false (base (bare text)) = true)
    (hexact : (bare text).any isExponentMark = true →
      w.coefficient.natAbs < 2 ^ 96 ∧ w.places ≤ 28) :
    (∃ v, Cell.read .decimal info text = .ok v) ↔
      w.Fits ∧ w.decimals ≤ s.toNat ∧ w.decimals < p.toNat
        ∧ |w.number| < 10 ^ (p.toNat - w.decimals) := by
  -- what is read has the digits and the places of what is written, hence its number
  have hnumber {d : Decimal} (hdigits : d.coefficient = w.digits) (hscale : d.scale = w.decimals) :
      d.number = w.number := by
    rw [Written.number_eq, number, hdigits, hscale]
  constructor
  · rintro ⟨v, hv⟩
    obtain ⟨d, hd, hroom, -⟩ := read_decimal_iff.mp hv
    obtain ⟨hfits, hdigits, hscale⟩ := (read?_eq_some_iff hw hspaced hexact).mp hd
    rw [hp, hs, hasRoom_iff, hnumber hdigits hscale, hscale] at hroom
    exact ⟨hfits, hroom⟩
  · rintro ⟨hfits, hroom⟩
    -- the decimal is built from the written parts, which fit
    let d : Decimal := ⟨w.digits, w.decimals, hfits.digits, hfits.decimals⟩
    refine ⟨.decimal d, read_decimal_iff.mpr ⟨d, ?_, ?_, rfl⟩⟩
    · exact (read?_eq_some_iff hw hspaced hexact).mpr ⟨hfits, rfl, rfl⟩
    · rw [hp, hs, hasRoom_iff, hnumber rfl rfl]
      exact hroom

/-- A column of prices below a thousand, with two places: precision 5 and scale 2. -/
def priceColumn : ColumnInfo where
  name := "Price"
  dataType := "DECIMAL(5, 2)"
  precision := some 5
  scale := some 2

/-- A price is accepted as it is written.  The comma is dropped and the exponent moves
    the point, so this is 123.4. -/
theorem accepts_decimal_price :
    written? (bare "1,234e-1") = some ⟨1234, 0, -1⟩
      ∧ ∃ v, Cell.read .decimal priceColumn "1,234e-1" = .ok v := by
  have hw : written? (bare "1,234e-1") = some ⟨1234, 0, -1⟩ := by decide +kernel
  have hfits : Written.Fits ⟨1234, 0, -1⟩ :=
    ⟨by decide, by decide, by decide, by decide, by decide⟩
  refine ⟨hw, (accepts_decimal_iff rfl rfl hw (by decide +kernel) ?_).mpr ⟨hfits, ?_⟩⟩
  · intro _
    exact ⟨hfits.coefficient, hfits.places⟩
  · refine ⟨by decide, by decide, ?_⟩
    show |(1234 : ℚ) / 10 ^ 0 * 10 ^ (-1 : ℤ)| < 10 ^ 4
    rw [abs_of_pos (by norm_num)]
    norm_num

/-- A column of the precision and scale can store the number: as many places as the
    scale and no more digits before the point than are left of the precision. -/
def Storable (p s : Nat) (x : ℚ) : Prop := (∃ z : ℤ, x * 10 ^ s = z) ∧ |x| < 10 ^ (p - s)

/-- **MORE IS ACCEPTED THAN THE COLUMN STORES**: a whole number leaves the scale unused.
    The digits that a number has are counted, not those that the column sets aside for
    its places, so `1,234` goes into a column for numbers below a thousand. -/
theorem accepts_decimal_not_storable :
    ¬ ∀ (info : ColumnInfo) (p s : UInt8) (text : String) (b : Decimal),
      info.precision = some p → info.scale = some s → s ≤ p →
      denoted? (bare text) = some b.number →
      ((∃ v, Cell.read .decimal info text = .ok v) ↔ Storable p.toNat s.toNat b.number) := by
  intro h
  let b : Decimal := ⟨1234, 0, by decide, by decide⟩
  have hwritten : written? (bare "1,234") = some ⟨1234, 0, 0⟩ := by decide +kernel
  have hdenoted : denoted? (bare "1,234") = some b.number := by
    rw [denoted?, hwritten]
    exact congrArg some (mul_one _)
  have hread : Cell.read .decimal priceColumn "1,234" = .ok (.decimal b) := by decide +kernel
  obtain ⟨-, hlt⟩ := (h priceColumn 5 2 "1,234" b rfl rfl (by decide) hdenoted).mp ⟨_, hread⟩
  have hlt : |(1234 : ℚ) / 10 ^ 0| < 10 ^ 3 := hlt
  norm_num at hlt

/-! ## Exactness -/

/-- **A CELL IS READ EXACTLY** in plain notation, and with an exponent exactly if a decimal can
    hold the number before the exponent: what comes behind its capacity there is rounded. -/
theorem decimal_exact_iff {info : ColumnInfo} {text : String} {v : Value}
    (h : Cell.read .decimal info text = .ok v) :
    ∃ d, v = .decimal d
      ∧ ((bare text).any isExponentMark = false → denoted? (bare text) = some d.number)
      ∧ (denoted? (bare text) = some d.number
        ↔ ∃ b : Decimal, denoted? (base (bare text)) = some b.number) := by
  obtain ⟨d, hd, -, hv⟩ := read_decimal_iff.mp h
  exact ⟨d, hv, read?_exact_iff hd⟩

/-- A column of amounts of any size: neither precision nor scale is given. -/
def amountColumn : ColumnInfo where
  name := "Amount"
  dataType := "DECIMAL"

/-- An amount with an exponent is read exactly. -/
theorem decimal_exact_amount :
    Cell.read .decimal amountColumn "1.50e2" = .ok (.decimal ⟨150, 0, by decide, by decide⟩)
      ∧ denoted? (bare "1.50e2") = some 150 := by
  have hread : Cell.read .decimal amountColumn "1.50e2"
      = .ok (.decimal ⟨150, 0, by decide, by decide⟩) := by decide +kernel
  have hwritten : written? (base (bare "1.50e2")) = some ⟨150, 2, 0⟩ := by decide +kernel
  obtain ⟨d, hd, -, hiff⟩ := decimal_exact_iff hread
  cases hd
  refine ⟨hread, (hiff.mpr ⟨⟨150, 2, by decide, by decide⟩, ?_⟩).trans ?_⟩
  · rw [denoted?, hwritten]
    exact congrArg some (mul_one _)
  · exact congrArg some (by norm_num [number])

/-- A place more than a decimal has is rounded, although the exponent would make room for it. -/
example : Cell.read .decimal amountColumn "0.00000000000000000000000000005e1"
    = .ok (.decimal ⟨1, 27, by decide, by decide⟩) := by decide +kernel

end Gridbase.Cell
