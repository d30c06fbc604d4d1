import Gridbase.Proofs.Binary64
import Mathlib.Algebra.Order.Field.Basic
import Mathlib.Data.Rat.Floor
import Mathlib.Tactic.Linarith
import Mathlib.Tactic.NormNum
import Mathlib.Tactic.Positivity

/-! # Rounded numbers, cut to whole ones

    A number is rounded to the nearest double, and what the double has behind the point is cut
    off.  The rounding moves the number by at most half of the distance of the doubles around it
    (`halfStep`), and it does so upwards in the case of a tie with a whole number.  So the whole
    number that is left is that of the exact number and half a step (`magnitude_nearest_div`). -/

namespace Gridbase.Binary64

/-- The number that a finite double is.  Doubles are counted in the smallest of them, of
    which `2 ^ 1074` make one, so this is exact. -/
def value (x : Binary64) : ℚ := x.units / 2 ^ 1074

/-- Half of the distance of the doubles around a number of units: the most that rounding
    to 53 bits can add. -/
def halfStep (n : Nat) : ℚ := 2 ^ (n.log2 - 52) / 2 / 2 ^ 1074

theorem abs_value (x : Binary64) : |x.value| = x.magnitude / 2 ^ 1074 := by
  have hpos : (0 : ℚ) < 2 ^ 1074 := pow_pos (by norm_num) 1074
  rw [value, abs_div, abs_of_pos hpos, ← natAbs_units, Nat.cast_natAbs, Int.cast_abs]

theorem value_nonneg_iff (x : Binary64) : 0 ≤ x.value ↔ 0 ≤ x.units := by
  have hpos : (0 : ℚ) < 2 ^ 1074 := pow_pos (by norm_num) 1074
  rw [value, le_div_iff₀ hpos, zero_mul, Int.cast_nonneg_iff]

/-- The number that some units are. -/
theorem value_of_units {x : Binary64} {m : Int} {k : Nat} (hk : k ≤ 1074)
    (h : x.units = m * 2 ^ (1074 - k)) : x.value = m / 2 ^ k := by
  have hne : (2 : ℚ) ^ (1074 - k) ≠ 0 := pow_ne_zero _ (by norm_num)
  have hsplit : (2 : ℚ) ^ 1074 = 2 ^ k * 2 ^ (1074 - k) := by
    rw [← pow_add, Nat.add_sub_cancel' hk]
  rw [value, h, hsplit, Int.cast_mul, Int.cast_pow, Int.cast_ofNat, mul_div_mul_right _ _ hne]

/-! ## The magnitude of a rounded quotient -/

/-- **EVEN NUMBERS ARE REACHED** by rounding from half a unit below them. -/
theorem le_roundQuotient_iff {n d q : Nat} (hd : 0 < d) (heven : q % 2 = 0) :
    q ≤ roundQuotient n d ↔ 2 * (q * d) ≤ 2 * n + d := by
  have hsplit : n / d * d + n % d = n := Nat.div_add_mod' n d
  have hrest : n % d < d := Nat.mod_lt n hd
  rw [roundQuotient]
  generalize n % d = r at hsplit hrest ⊢
  generalize n / d = a at hsplit ⊢
  rcases Nat.lt_trichotomy q (a + 1) with hbelow | rfl | habove
  · have hmul := Nat.mul_le_mul_right d (Nat.le_of_lt_succ hbelow)
    split_ifs <;> omega
  · -- half a unit is missing at most, and a tie goes to the even number above
    rw [Nat.add_mul, Nat.one_mul]
    split_ifs <;> omega
  · have hmul := Nat.mul_le_mul_right d (Nat.succ_le_of_lt habove)
    rw [Nat.succ_mul, Nat.add_mul, Nat.one_mul] at hmul
    split_ifs <;> omega

/-- The bits of a shifted significand, and of the power of two that it may be carried to. -/
theorem magnitudeOf_shifted {k q : Nat} (hlow : k = 0 ∨ 2 ^ 52 ≤ q) (hhigh : q ≤ 2 ^ 53) :
    magnitudeOf (k * 2 ^ 52 + q) = q * 2 ^ k := by
  rcases Nat.lt_or_ge q (2 ^ 52) with hsmall | hfull
  · obtain rfl : k = 0 := hlow.resolve_right (Nat.not_le_of_lt hsmall)
    rw [magnitudeOf, if_pos (by omega), Nat.pow_zero]
    omega
  rcases Nat.lt_or_eq_of_le hhigh with hfits | rfl
  · have hfield : (k * 2 ^ 52 + q) / 2 ^ 52 = k + 1 := by omega
    have hfraction : 2 ^ 52 + (k * 2 ^ 52 + q) % 2 ^ 52 = q := by omega
    rw [magnitudeOf, hfield, if_neg (Nat.succ_ne_zero k), hfraction, Nat.add_sub_cancel]
  · -- the carry leaves no fraction and moves the exponent on
    have hfield : (k * 2 ^ 52 + 2 ^ 53) / 2 ^ 52 = k + 1 + 1 := by omega
    have hfraction : 2 ^ 52 + (k * 2 ^ 52 + 2 ^ 53) % 2 ^ 52 = 2 ^ 52 := by omega
    rw [magnitudeOf, hfield, if_neg (Nat.succ_ne_zero _), hfraction, Nat.add_sub_cancel,
      ← Nat.pow_add, ← Nat.pow_add]
    exact congrArg (2 ^ ·) (by omega)

/-- **A ROUNDED QUOTIENT** keeps its first 53 bits, rounded. -/
theorem magnitude_nearest (neg : Bool) {n d : Nat} (h : (n / d).log2 ≤ 52 + 2045) :
    (nearest neg n d).magnitude
      = roundQuotient n (d * 2 ^ ((n / d).log2 - 52)) * 2 ^ ((n / d).log2 - 52) := by
  have hhigh := roundQuotient_shifted_le n d
  have hlow : (n / d).log2 - 52 = 0
      ∨ 2 ^ 52 ≤ roundQuotient n (d * 2 ^ ((n / d).log2 - 52)) := by
    rcases Nat.lt_or_ge (n / d).log2 52 with hshort | hlong
    · exact .inl (Nat.sub_eq_zero_of_le (Nat.le_of_lt hshort))
    · exact .inr (le_roundQuotient_shifted hlong)
  have hfinite : nearestBits n d = ((n / d).log2 - 52) * 2 ^ 52
      + roundQuotient n (d * 2 ^ ((n / d).log2 - 52)) := by
    refine Nat.min_eq_left ?_
    rw [infinityBits]
    omega
  have hbits : nearestBits n d < 2 ^ 63 :=
    Nat.lt_of_le_of_lt (Nat.min_le_right ..) (by decide)
  rw [nearest, magnitude, absBits_ofParts hbits, hfinite, magnitudeOf_shifted hlow hhigh]

/-- One, in units. -/
theorem one_units : (2 : Int) ^ 1074 = ((2 ^ 1074 : Nat) : Int) := by
  rw [Nat.cast_pow, Nat.cast_ofNat]

/-- The sign of a rounded quotient is the one that it is given. -/
theorem truncate_nearest (neg : Bool) (n d : Nat) :
    (nearest neg n d).truncate
      = if neg then -(((nearest neg n d).magnitude / 2 ^ 1074 : Nat) : Int)
        else ((nearest neg n d).magnitude / 2 ^ 1074 : Nat) := by
  have hbits : nearestBits n d < 2 ^ 63 :=
    Nat.lt_of_le_of_lt (Nat.min_le_right ..) (by decide)
  have hmagnitude : (nearest neg n d).magnitude = magnitudeOf (nearestBits n d) := by
    rw [magnitude, nearest, absBits_ofParts hbits]
  have hunits : (nearest neg n d).units = _ := units_ofParts hbits neg
  rw [truncate, hunits, hmagnitude, one_units]
  cases neg with
  | false => exact (Int.ofNat_tdiv _ _).symm
  | true =>
      rw [if_pos rfl, if_pos rfl, Int.neg_tdiv, ← Int.ofNat_tdiv]

/-! ## Whole numbers -/

/-- **A ROUNDED NUMBER, CUT TO A WHOLE ONE**, is the whole part of the exact number and half a
    step. -/
theorem magnitude_nearest_div (neg : Bool) {n : Nat} (h : n < 2 ^ (52 + 1074)) :
    (nearest neg n 1).magnitude / 2 ^ 1074 = ⌊(n : ℚ) / 2 ^ 1074 + halfStep n⌋₊ := by
  have hlog : n.log2 < 52 + 1074 := by
    by_cases hzero : n = 0
    · rw [hzero]
      exact Nat.zero_lt_succ _
    · exact (Nat.log2_lt hzero).mpr h
  have hround := magnitude_nearest neg (n := n) (d := 1) (by rw [Nat.div_one]; omega)
  rw [Nat.div_one, Nat.one_mul] at hround
  rw [hround, halfStep]
  -- one unit of the whole number is an even number of steps
  obtain ⟨e, he⟩ : ∃ e, 1074 = 1 + e + (n.log2 - 52) := ⟨1073 - (n.log2 - 52), by omega⟩
  generalize n.log2 - 52 = k at he ⊢
  have hunit : 2 ^ 1074 = 2 * 2 ^ e * 2 ^ k := by
    rw [he, Nat.pow_add, Nat.pow_add, Nat.pow_one]
  refine eq_of_forall_le_iff fun c => ?_
  have hpos : (0 : ℚ) < 2 ^ 1074 := pow_pos (by norm_num) 1074
  have hsum : (0 : ℚ) ≤ n + 2 ^ k / 2 := add_nonneg n.cast_nonneg (by positivity)
  rw [← add_div, Nat.le_floor_iff (div_nonneg hsum hpos.le), le_div_iff₀ hpos]
  have hsteps : c * 2 ^ 1074 = c * (2 * 2 ^ e) * 2 ^ k := by rw [hunit, Nat.mul_assoc c]
  calc c ≤ roundQuotient n (2 ^ k) * 2 ^ k / 2 ^ 1074
      ↔ c * (2 * 2 ^ e) * 2 ^ k ≤ roundQuotient n (2 ^ k) * 2 ^ k := by
        rw [Nat.le_div_iff_mul_le (Nat.two_pow_pos _), hsteps]
    _ ↔ c * (2 * 2 ^ e) ≤ roundQuotient n (2 ^ k) := Nat.mul_le_mul_right_iff (Nat.two_pow_pos k)
    _ ↔ 2 * (c * (2 * 2 ^ e) * 2 ^ k) ≤ 2 * n + 2 ^ k :=
        le_roundQuotient_iff (Nat.two_pow_pos k)
          (by rw [Nat.mul_left_comm]; exact Nat.mul_mod_right ..)
    _ ↔ (c : ℚ) * 2 ^ 1074 ≤ n + 2 ^ k / 2 := by
        rw [← hsteps, ← Nat.cast_le (α := ℚ)]
        push_cast
        constructor <;> intro hle <;> linarith

/-! ## Steps -/

theorem halfStep_nonneg (n : Nat) : 0 ≤ halfStep n := by
  rw [halfStep]
  positivity

/-- Below a power of two half a step is at most so large. -/
theorem halfStep_le {n k : Nat} (h : n < 2 ^ (1074 + k)) : halfStep n ≤ 2 ^ k / 2 ^ 54 := by
  have hlog : n.log2 - 52 + 53 ≤ 1074 + k := by
    by_cases hzero : n = 0
    · rw [hzero]
      exact Nat.le_trans (by decide) (Nat.le_add_right ..)
    · have hlt := (Nat.log2_lt hzero).mpr h
      omega
  have hpow : (2 : ℚ) ^ (n.log2 - 52) * 2 ^ 53 ≤ 2 ^ 1074 * 2 ^ k := by
    rw [← pow_add, ← pow_add]
    exact pow_le_pow_right₀ (by norm_num) hlog
  rw [halfStep, div_div, div_le_div_iff₀ (by positivity) (by positivity)]
  calc (2 : ℚ) ^ (n.log2 - 52) * 2 ^ 54 = 2 * (2 ^ (n.log2 - 52) * 2 ^ 53) := by ring
    _ ≤ 2 * (2 ^ 1074 * 2 ^ k) := by linarith
    _ = 2 ^ k * (2 * 2 ^ 1074) := by ring

/-- From a power of two on half a step is at least so large. -/
theorem le_halfStep {n k : Nat} (h : 2 ^ (1074 + k) ≤ n) : 2 ^ k / 2 ^ 53 ≤ halfStep n := by
  have hne : n ≠ 0 := Nat.ne_of_gt (Nat.lt_of_lt_of_le (Nat.two_pow_pos _) h)
  have hlog : 1074 + k ≤ n.log2 - 52 + 52 := by
    have hle := (Nat.le_log2 hne).mpr h
    omega
  have hpow : (2 : ℚ) ^ 1074 * 2 ^ k ≤ 2 ^ (n.log2 - 52) * 2 ^ 52 := by
    rw [← pow_add, ← pow_add]
    exact pow_le_pow_right₀ (by norm_num) hlog
  rw [halfStep, div_div, div_le_div_iff₀ (by positivity) (by positivity)]
  calc (2 : ℚ) ^ k * (2 * 2 ^ 1074) = 2 * (2 ^ 1074 * 2 ^ k) := by ring
    _ ≤ 2 * (2 ^ (n.log2 - 52) * 2 ^ 52) := by linarith
    _ = 2 ^ (n.log2 - 52) * 2 ^ 53 := by ring

end Gridbase.Binary64
