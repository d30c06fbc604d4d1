import Gridbase.Binary64
import Mathlib.Algebra.Order.Ring.Nat
import Mathlib.Tactic.Ring
import Mathlib.Tactic.SplitIfs

/-! # Exact values of doubles

    Rounding fixes what it can represent: the double nearest to the value of a finite double has
    that value (`units_ofUnits`).  On the bits without the sign rounding even gives back the bits
    themselves (`nearestBits_magnitudeOf`). -/

namespace Gridbase.Binary64

/-- A whole quotient is not rounded. -/
theorem roundQuotient_mul (q : Nat) {d : Nat} (hd : 0 < d) : roundQuotient (q * d) d = q := by
  rw [roundQuotient, Nat.mul_div_cancel q hd, Nat.mul_mod_left]
  exact if_pos (by omega)

/-- **ROUNDING FIXES WHAT IT CAN REPRESENT**: the bits nearest to the magnitude of some bits are
    these bits. -/
theorem nearestBits_magnitudeOf {abs : Nat} (h : abs ≤ infinityBits) :
    nearestBits (magnitudeOf abs) 1 = abs := by
  have hsplit : abs / 2 ^ 52 * 2 ^ 52 + abs % 2 ^ 52 = abs := Nat.div_add_mod' abs (2 ^ 52)
  have hfraction : abs % 2 ^ 52 < 2 ^ 52 := Nat.mod_lt _ (Nat.two_pow_pos 52)
  rw [nearestBits, magnitudeOf, Nat.div_one, Nat.one_mul]
  generalize abs % 2 ^ 52 = fraction at hsplit hfraction ⊢
  generalize abs / 2 ^ 52 = exponent at hsplit ⊢
  cases exponent with
  | zero =>
      -- a number that is not normal has its bits as its magnitude
      have hshift : fraction.log2 - 52 = 0 := by
        by_cases hzero : fraction = 0
        · rw [hzero]
          rfl
        · have hlog := (Nat.log2_lt hzero).mpr hfraction
          omega
      have hround := roundQuotient_mul fraction Nat.one_pos
      rw [Nat.mul_one] at hround
      rw [if_pos rfl, hshift, Nat.pow_zero, hround]
      omega
  | succ exponent =>
      -- all 53 significant bits are kept
      have hlog : ((2 ^ 52 + fraction) * 2 ^ exponent).log2 = 52 + exponent := by
        refine (Nat.log2_eq_iff ?_).mpr ⟨?_, ?_⟩
        · exact Nat.ne_of_gt (Nat.mul_pos (by omega) (Nat.two_pow_pos exponent))
        · rw [Nat.pow_add]
          exact Nat.mul_le_mul_right _ (Nat.le_add_right _ _)
        · rw [Nat.add_right_comm, Nat.pow_add]
          exact Nat.mul_lt_mul_of_pos_right (by omega) (Nat.two_pow_pos exponent)
      rw [if_neg (Nat.succ_ne_zero exponent), Nat.add_sub_cancel, hlog, Nat.add_sub_cancel_left,
        roundQuotient_mul _ (Nat.two_pow_pos exponent)]
      omega

theorem toNat_bits_ofParts {abs : Nat} (h : abs < 2 ^ 63) (neg : Bool) :
    (ofParts neg abs).bits.toNat = if neg then 2 ^ 63 + abs else abs := by
  refine UInt64.toNat_ofNat_of_lt' ?_
  show _ < 2 ^ 64
  split <;> omega

theorem absBits_ofParts {abs : Nat} (h : abs < 2 ^ 63) (neg : Bool) :
    (ofParts neg abs).absBits = abs := by
  rw [absBits, toNat_bits_ofParts h]
  cases neg with
  | true =>
      show (2 ^ 63 + abs) % 2 ^ 63 = abs
      omega
  | false => exact Nat.mod_eq_of_lt h

/-- The bits of a double are its sign and the other bits. -/
theorem units_ofParts {abs : Nat} (h : abs < 2 ^ 63) (neg : Bool) :
    (ofParts neg abs).units = if neg then -(magnitudeOf abs : Int) else magnitudeOf abs := by
  have hneg : (ofParts neg abs).negative = neg := by
    rw [negative, toNat_bits_ofParts h]
    cases neg with
    | true => exact decide_eq_true (Nat.le_add_right ..)
    | false => exact decide_eq_false (Nat.not_le_of_lt h)
  rw [units, magnitude, hneg, absBits_ofParts h]

theorem exponentField_eq (x : Binary64) : x.exponentField = x.absBits / 2 ^ 52 := by
  rw [exponentField, absBits]
  omega

theorem absBits_le_of_isFinite {x : Binary64} (h : x.isFinite = true) :
    x.absBits ≤ infinityBits := by
  have hexponent : x.bits.toNat / 2 ^ 52 % 2 ^ 11 < 2047 := of_decide_eq_true h
  rw [absBits, infinityBits]
  omega

theorem natAbs_units (x : Binary64) : x.units.natAbs = x.magnitude := by
  rw [units]
  split
  · rw [Int.natAbs_neg, Int.natAbs_natCast]
  · rw [Int.natAbs_natCast]

/-- **THE VALUE OF A FINITE DOUBLE** is rounded to itself. -/
theorem units_ofUnits {x : Binary64} (h : x.isFinite = true) : (ofUnits x.units).units = x.units := by
  have habs := absBits_le_of_isFinite h
  rw [ofUnits, nearest, natAbs_units, magnitude, nearestBits_magnitudeOf habs,
    units_ofParts (Nat.lt_of_le_of_lt habs (by decide)), ← magnitude, units]
  cases x.negative with
  | false => simp
  | true =>
      -- the sign of a zero is lost, but not its value
      rw [if_pos rfl]
      by_cases hneg : -(x.magnitude : Int) < 0
      · rw [decide_eq_true hneg, if_pos rfl]
      · rw [decide_eq_false hneg, if_neg Bool.false_ne_true]
        omega

/-- Unsigned bits with a large exponent field stand for a large magnitude. -/
theorem le_magnitudeOf {abs e : Nat} (h : e + 1 ≤ abs / 2 ^ 52) : 2 ^ (52 + e) ≤ magnitudeOf abs := by
  rw [magnitudeOf, if_neg (by omega), Nat.pow_add]
  exact Nat.mul_le_mul (Nat.le_add_right ..) (Nat.pow_le_pow_right (by decide) (by omega))

/-- A double that is not finite stands for a very large magnitude. -/
theorem isFinite_of_magnitude_lt {x : Binary64} {n : Nat} (hn : n ≤ 52 + 2046)
    (h : x.magnitude < 2 ^ n) : x.isFinite = true := by
  refine decide_eq_true (Nat.lt_of_not_le fun hfull => Nat.not_lt_of_le ?_ h)
  rw [exponentField_eq] at hfull
  have hlarge : 2 ^ (52 + (n - 52)) ≤ x.magnitude := le_magnitudeOf (by omega)
  exact Nat.le_trans (Nat.pow_le_pow_right (by decide) (by omega)) hlarge

theorem absBits_lt (x : Binary64) : x.absBits < 2 ^ 63 := Nat.mod_lt _ (Nat.two_pow_pos 63)

/-- The sign makes no difference to whether a double is finite. -/
theorem isFinite_ofParts (x : Binary64) (neg : Bool) :
    (ofParts neg x.absBits).isFinite = x.isFinite := by
  rw [isFinite, isFinite, exponentField_eq, exponentField_eq, absBits_ofParts x.absBits_lt]

/-! ## Bounds -/

theorem roundQuotient_le (n d : Nat) : roundQuotient n d ≤ n / d + 1 := by
  unfold roundQuotient
  dsimp only
  split_ifs <;> omega

theorem le_roundQuotient (n d : Nat) : n / d ≤ roundQuotient n d := by
  unfold roundQuotient
  dsimp only
  split_ifs <;> omega

/-- Unsigned bits with a small exponent field stand for a small magnitude. -/
theorem magnitudeOf_lt {abs e : Nat} (h : abs / 2 ^ 52 ≤ e + 1) : magnitudeOf abs < 2 ^ (53 + e) := by
  have hfraction : abs % 2 ^ 52 < 2 ^ 52 := Nat.mod_lt _ (Nat.two_pow_pos 52)
  rw [magnitudeOf, Nat.pow_add]
  split
  · exact Nat.lt_of_lt_of_le hfraction
      (Nat.le_trans (by decide) (Nat.le_mul_of_pos_right _ (Nat.two_pow_pos e)))
  · exact Nat.mul_lt_mul_of_lt_of_le (by omega)
      (Nat.pow_le_pow_right (by decide) (by omega)) (Nat.two_pow_pos e)

/-- The shift leaves 53 bits, which may carry into one more. -/
theorem roundQuotient_shifted_le (n d : Nat) :
    roundQuotient n (d * 2 ^ ((n / d).log2 - 52)) ≤ 2 ^ 53 := by
  refine Nat.le_trans (roundQuotient_le ..) (Nat.succ_le_of_lt ?_)
  rw [← Nat.div_div_eq_div_mul]
  refine (Nat.div_lt_iff_lt_mul (Nat.two_pow_pos _)).mpr ?_
  rw [← Nat.pow_add]
  exact Nat.lt_of_lt_of_le Nat.lt_log2_self (Nat.pow_le_pow_right (by decide) (by omega))

/-- The first of the 53 bits is set, unless the quotient is too small to fill them. -/
theorem le_roundQuotient_shifted {n d : Nat} (h : 52 ≤ (n / d).log2) :
    2 ^ 52 ≤ roundQuotient n (d * 2 ^ ((n / d).log2 - 52)) := by
  have hne : n / d ≠ 0 := by
    intro hzero
    rw [hzero] at h
    exact absurd h (by decide)
  refine Nat.le_trans ?_ (le_roundQuotient ..)
  rw [← Nat.div_div_eq_div_mul]
  refine (Nat.le_div_iff_mul_le (Nat.two_pow_pos _)).mpr ?_
  rw [← Nat.pow_add, Nat.add_sub_cancel' h]
  exact Nat.log2_self_le hne

/-- **A ROUNDED QUOTIENT** does not exceed the next power of two.  It may reach that
    power, since rounding up can carry through all of its bits. -/
theorem magnitude_nearest_lt (neg : Bool) {n d k : Nat} (hk : 53 ≤ k) (h : n / d < 2 ^ k) :
    (nearest neg n d).magnitude < 2 ^ (k + 1) := by
  have hbits : nearestBits n d < 2 ^ 63 :=
    Nat.lt_of_le_of_lt (Nat.min_le_right ..) (by decide)
  rw [nearest, magnitude, absBits_ofParts hbits]
  -- the shift leaves 53 bits of a quotient below 2 ^ k
  have hshift : (n / d).log2 - 52 ≤ k - 53 := by
    by_cases hzero : n / d = 0
    · rw [hzero]
      exact Nat.zero_le _
    · have hlog := (Nat.log2_lt hzero).mpr h
      omega
  -- rounding adds at most one unit in the last of the 53 bits, which may carry
  have hexponent : nearestBits n d / 2 ^ 52 ≤ (k - 52) + 1 := by
    have hle : nearestBits n d ≤ (k - 53) * 2 ^ 52 + 2 ^ 53 := by
      refine Nat.le_trans (Nat.min_le_left ..) (Nat.add_le_add ?_ (roundQuotient_shifted_le n d))
      exact Nat.mul_le_mul_right _ hshift
    omega
  have hmagnitude := magnitudeOf_lt hexponent
  rwa [show 53 + (k - 52) = k + 1 by omega] at hmagnitude

/-- A rounded quotient does not fall below a power of two. -/
theorem le_magnitude_nearest (neg : Bool) {n d k : Nat} (hk : 52 ≤ k) (hlarge : k ≤ 52 + 2046)
    (h : 2 ^ k ≤ n / d) : 2 ^ k ≤ (nearest neg n d).magnitude := by
  have hbits : nearestBits n d < 2 ^ 63 :=
    Nat.lt_of_le_of_lt (Nat.min_le_right ..) (by decide)
  rw [nearest, magnitude, absBits_ofParts hbits]
  have hne : n / d ≠ 0 := Nat.ne_of_gt (Nat.lt_of_lt_of_le (Nat.two_pow_pos k) h)
  have hlog : k ≤ (n / d).log2 := (Nat.le_log2 hne).mpr h
  have hround := le_roundQuotient_shifted (Nat.le_trans hk hlog)
  have hexponent : (k - 52) + 1 ≤ nearestBits n d / 2 ^ 52 := by
    rw [nearestBits, infinityBits]
    omega
  have hmagnitude := le_magnitudeOf hexponent
  rwa [show 52 + (k - 52) = k by omega] at hmagnitude

end Gridbase.Binary64
