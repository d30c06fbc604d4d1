import Gridbase.Moment.Serial
import Gridbase.Proofs.Binary64.Rounding
import Gridbase.Proofs.Moment.Instant

/-! # Serial dates and the time that they stand for

    A serial counts the days since the epoch, and its fraction is a time of day.  It is turned into
    a count of milliseconds first, rounded and without its sign (`serialCount`), and the count is
    then split into days and a time of day again, which moves forward from midnight.

    The count is less than a millisecond away from what the serial says (`serialCount_near`), and
    so is the moment as long as both splits agree on the day (`ofSerial?_nearest`).  They differ on
    a negative serial whose time of day is rounded up to midnight (`CarriesDay`): the count has one
    day more, the day moves back by it, and no time of day is left to move forward.

    The serials that are accepted are bounded before the rounding.  Those next to the bounds are
    rounded to them, and fall on the day before the first year or after the last one
    (`ofSerial?_range`). -/

namespace Gridbase.Moment

open Gridbase.Binary64

/-! ## Time -/

/-- The days of a number, without its fraction, towards zero. -/
def wholeDays (v : ℚ) : Int := if 0 ≤ v then ⌊v⌋ else ⌈v⌉

/-- The time that a serial stands for, in milliseconds since day zero.  The fraction moves
    forward from midnight, whatever the sign. -/
def serialTime (v : ℚ) : ℚ :=
  (serialEpoch.dayNumber + wholeDays v + |v - wholeDays v|) * millisPerDay

/-- The milliseconds that are left of the day. -/
def timeLeft (v : ℚ) : ℚ := (1 - |v - wholeDays v|) * millisPerDay

theorem cast_millisPerDay : (millisPerDay : ℚ) = 86400000 := by
  rw [millisPerDay]
  norm_num

/-! ## The count of milliseconds -/

/-- The sum that is rounded, without its sign: the milliseconds and half of one, in
    units.  It is one sum of doubles, and is rounded as such. -/
def serialSum (s : Binary64) : Nat := s.magnitude * millisPerDay + 2 ^ 1073

/-- The milliseconds of a serial, rounded, without their sign.  Half a step more before
    the floor has the effect of rounding the sum to a double first. -/
def serialCount (s : Binary64) : Nat :=
  ⌊|s.value| * millisPerDay + 1 / 2 + halfStep (serialSum s)⌋₊

theorem serialSum_div (s : Binary64) :
    (serialSum s : ℚ) / 2 ^ 1074 = |s.value| * millisPerDay + 1 / 2 := by
  have hne : (2 : ℚ) ^ 1073 ≠ 0 := pow_ne_zero 1073 (by norm_num)
  have hhalf : (2 : ℚ) ^ 1073 / 2 ^ 1074 = 1 / 2 := by
    rw [pow_succ 2 1073, div_mul_eq_div_div, div_self hne]
  rw [abs_value, serialSum, Nat.cast_add, Nat.cast_mul, Nat.cast_pow, Nat.cast_ofNat, add_div,
    hhalf, mul_div_right_comm]

/-- A bound of the sum is one of the milliseconds. -/
theorem serialSum_lt_iff (s : Binary64) (k : Nat) :
    serialSum s < 2 ^ (1074 + k) ↔ |s.value| * millisPerDay + 1 / 2 < 2 ^ k := by
  have hpos : (0 : ℚ) < 2 ^ 1074 := pow_pos (by norm_num) 1074
  rw [← serialSum_div, div_lt_iff₀ hpos, ← pow_add, Nat.add_comm, ← Nat.cast_lt (α := ℚ),
    Nat.cast_pow, Nat.cast_ofNat]

/-- **A SERIAL IS ACCEPTED** if it is finite and strictly between the floor and the ceiling. -/
theorem isSerial_iff (s : Binary64) :
    isSerial s = true ↔ s.isFinite = true ∧ -657435 < s.value ∧ s.value < 2958466 := by
  have hpos : (0 : ℚ) < 2 ^ 1074 := pow_pos (by norm_num) 1074
  have hfloor : (-657435 : ℚ) * 2 ^ 1074 = (serialFloor * 2 ^ 1074 : Int) := by
    rw [Int.cast_mul, Int.cast_pow, Int.cast_ofNat, serialFloor, Int.cast_neg, Int.cast_ofNat]
  have hceiling : (2958466 : ℚ) * 2 ^ 1074 = (serialCeiling * 2 ^ 1074 : Int) := by
    rw [Int.cast_mul, Int.cast_pow, Int.cast_ofNat, serialCeiling, Int.cast_ofNat]
  rw [isSerial, Bool.and_eq_true, Bool.and_eq_true, decide_eq_true_eq, decide_eq_true_eq,
    and_assoc, value, lt_div_iff₀ hpos, div_lt_iff₀ hpos, hfloor, hceiling, Int.cast_lt,
    Int.cast_lt]

/-! ## Rounding -/

variable {s : Binary64}

theorem abs_value_lt (h : isSerial s = true) : |s.value| < 2958466 := by
  obtain ⟨-, hlow, hhigh⟩ := (isSerial_iff s).mp h
  exact abs_lt.mpr ⟨by linarith, hhigh⟩

/-- Half a step of the sum is no more than a small part of a millisecond. -/
theorem halfStep_serialSum_le (h : isSerial s = true) : halfStep (serialSum s) ≤ 1 / 64 := by
  have hvalue := abs_value_lt h
  have hsum : serialSum s < 2 ^ (1074 + 48) := by
    rw [serialSum_lt_iff, cast_millisPerDay]
    linarith
  have hstep := halfStep_le hsum
  norm_num at hstep ⊢
  exact hstep

theorem serialCount_lt_iff (s : Binary64) (c : Nat) :
    serialCount s < c ↔ |s.value| * millisPerDay + 1 / 2 + halfStep (serialSum s) < c := by
  have hstep := halfStep_nonneg (serialSum s)
  have hmillis : 0 ≤ |s.value| * (millisPerDay : ℚ) := by positivity
  exact Nat.floor_lt (by linarith)

/-- **THE COUNT OF MILLISECONDS** has the sign of the serial.  The sign is taken off
    first and put back last, so only the count has to be followed through the rounding.
    -/
theorem serialMillis_eq (h : isSerial s = true) :
    serialMillis s = if 0 ≤ s.value then (serialCount s : Int) else -(serialCount s : Int) := by
  -- the sum is below 2 ^ 52 milliseconds, where doubles still have halves
  have hsum : serialSum s < 2 ^ (52 + 1074) := by
    have hvalue := abs_value_lt h
    rw [Nat.add_comm, serialSum_lt_iff, cast_millisPerDay]
    linarith
  have hcount (neg : Bool) :
      (nearest neg (serialSum s) 1).magnitude / 2 ^ 1074 = serialCount s := by
    rw [magnitude_nearest_div neg hsum, serialSum_div, serialCount]
  have hcast : (serialSum s : Int) = s.magnitude * millisPerDay + 2 ^ 1073 := by
    rw [serialSum, Nat.cast_add, Nat.cast_mul, Nat.cast_pow, Nat.cast_ofNat]
  -- the sign only mirrors the count: both cases round the same magnitude
  have habs := natAbs_units s
  by_cases hsign : 0 ≤ s.units
  · have hunits : s.units = s.magnitude := by omega
    have hexact : s.units * millisPerDay + 2 ^ 1073 = serialSum s := by rw [hcast, hunits]
    rw [if_pos ((value_nonneg_iff s).mpr hsign)]
    simp only [serialMillis, if_pos hsign]
    rw [hexact, ofUnits, Int.natAbs_natCast, decide_eq_false (by omega), truncate_nearest, hcount]
    rfl
  · have hunits : s.units = -(s.magnitude : Int) := by omega
    have hexact : s.units * millisPerDay + -2 ^ 1073 = -(serialSum s : Int) := by
      rw [hcast, hunits, Int.neg_add, Int.neg_mul]
    have hpos : 0 < serialSum s := Nat.add_pos_right _ (Nat.two_pow_pos 1073)
    rw [if_neg (mt (value_nonneg_iff s).mp hsign)]
    simp only [serialMillis, if_neg hsign]
    rw [hexact, ofUnits, Int.natAbs_neg, Int.natAbs_natCast, decide_eq_true (by omega),
      truncate_nearest, hcount]
    rfl

/-- The time of day of a positive count moves forward as it is. -/
theorem forwardMillis_natCast (n : Nat) : forwardMillis n = n := if_neg (by omega)

/-- The days of a negative count stay negative, and its time of day moves forward. -/
theorem forwardMillis_neg (n : Nat) :
    forwardMillis (-(n : Int)) = -((n / millisPerDay : Nat) : Int) * millisPerDay
      + (n % millisPerDay : Nat) := by
  rcases Nat.eq_zero_or_pos n with rfl | hpos
  · rfl
  have hsplit : ((n / millisPerDay : Nat) : Int) * millisPerDay + (n % millisPerDay : Nat) = n := by
    exact_mod_cast Nat.div_add_mod' n millisPerDay
  have hmod : Int.tmod (-(n : Int)) millisPerDay = -((n % millisPerDay : Nat) : Int) := by
    rw [Int.neg_tmod, ← Int.ofNat_tmod]
  rw [forwardMillis, if_pos (by omega), hmod, Int.neg_mul, Int.neg_mul]
  omega

/-! ## Moments -/

theorem dayNumber_serialEpoch : serialEpoch.dayNumber = 693899 := by decide

theorem serialCount_le (h : isSerial s = true) : serialCount s ≤ 2958466 * millisPerDay := by
  have hvalue := abs_value_lt h
  have hstep := halfStep_serialSum_le h
  refine Nat.le_of_lt_succ ((serialCount_lt_iff s _).mpr ?_)
  rw [Nat.cast_succ, Nat.cast_mul, cast_millisPerDay]
  push_cast
  linarith

/-- **EVERY SERIAL IS A MOMENT**, at the instant of its count.  The bounds leave enough
    room for the rounding, so the calendar has the day. -/
theorem exists_ofSerial? (h : isSerial s = true) :
    ∃ m, ofSerial? s = some m
      ∧ m.instant = serialEpoch.dayNumber * millisPerDay + forwardMillis (serialMillis s) := by
  have hcount := serialCount_le h
  -- turning the time of day forward moves the count by less than two days
  have hrange : -2958466 * (millisPerDay : Int) ≤ forwardMillis (serialMillis s)
      ∧ forwardMillis (serialMillis s) ≤ 2958466 * millisPerDay := by
    rw [serialMillis_eq h]
    split
    · rw [forwardMillis_natCast]
      simp only [millisPerDay] at hcount ⊢
      omega
    · rw [forwardMillis_neg]
      simp only [millisPerDay] at hcount ⊢
      omega
  have hfirst : Date.yearStart minYear = -95745824 := by decide
  have hlast : Date.yearStart (maxYear + 1) = 95745705 := by decide
  rw [ofSerial?, if_pos h]
  refine exists_ofInstant? ?_ ?_
  · rw [hfirst, dayNumber_serialEpoch]
    simp only [millisPerDay] at hrange ⊢
    omega
  · rw [hlast, dayNumber_serialEpoch]
    simp only [millisPerDay] at hrange ⊢
    omega

/-! ## Time of day -/

/-- A negative serial whose time of day is rounded up to midnight: no more than half a millisecond
    is missing, and half a step of the sum. -/
def CarriesDay (s : Binary64) : Prop :=
  s.value < 0 ∧ timeLeft s.value ≤ 1 / 2 + halfStep (serialSum s)

instance (s : Binary64) : Decidable (CarriesDay s) := inferInstanceAs (Decidable (_ ∧ _))

/-- The count is less than a millisecond away from the milliseconds of the serial. -/
theorem serialCount_near (h : isSerial s = true) :
    |s.value| * millisPerDay - 1 < serialCount s
      ∧ (serialCount s : ℚ) < |s.value| * millisPerDay + 1 := by
  have hstep := halfStep_serialSum_le h
  have hnonneg := halfStep_nonneg (serialSum s)
  have hmillis : 0 ≤ |s.value| * (millisPerDay : ℚ) := by positivity
  have hfloor := Nat.floor_le (a := |s.value| * millisPerDay + 1 / 2 + halfStep (serialSum s))
    (by linarith)
  have hnext := Nat.lt_floor_add_one
    (|s.value| * (millisPerDay : ℚ) + 1 / 2 + halfStep (serialSum s))
  rw [← serialCount] at hfloor hnext
  constructor <;> linarith

theorem serialTime_of_nonneg {v : ℚ} (h : 0 ≤ v) :
    serialTime v = (serialEpoch.dayNumber + v) * millisPerDay := by
  rw [serialTime, wholeDays, if_pos h, Int.self_sub_floor, abs_of_nonneg (Int.fract_nonneg v),
    add_assoc, Int.floor_add_fract]

/-- The whole days of a negative number, and what is left of it. -/
theorem exists_days_of_neg {v : ℚ} (h : v < 0) :
    ∃ n : Nat, wholeDays v = -(n : Int) ∧ n ≤ |v| ∧ |v| < n + 1 ∧ |v - wholeDays v| = |v| - n := by
  have hfloor : 0 ≤ ⌊-v⌋ := Int.floor_nonneg.mpr (by linarith)
  obtain ⟨n, hn⟩ := Int.eq_ofNat_of_zero_le hfloor
  have hwhole : wholeDays v = -(n : Int) := by
    rw [wholeDays, if_neg (not_le.mpr h), ← neg_neg v, Int.ceil_neg, hn]
  have hcast : (⌊-v⌋ : ℚ) = n := by rw [hn, Int.cast_natCast]
  have hlow := Int.floor_le (-v)
  have hhigh := Int.lt_floor_add_one (-v)
  rw [hcast] at hlow hhigh
  have hrest : v - wholeDays v = -(-v - n) := by
    rw [hwhole, Int.cast_neg, Int.cast_natCast]
    ring
  rw [abs_of_neg h]
  refine ⟨n, hwhole, hlow, hhigh, ?_⟩
  rw [hrest, abs_neg, abs_of_nonneg (by linarith)]

section

variable (h : isSerial s = true) {n : Nat} (hlow : n ≤ |s.value|) (hhigh : |s.value| < n + 1)

include h hlow hhigh

/-- The count lies within the day of the serial, or at the end of it. -/
theorem serialCount_mem_day :
    n * millisPerDay ≤ serialCount s ∧ serialCount s ≤ (n + 1) * millisPerDay := by
  obtain ⟨hbelow, habove⟩ := serialCount_near h
  rw [cast_millisPerDay] at hbelow habove
  have hfirst : ((n * millisPerDay : Nat) : ℚ) < (serialCount s + 1 : Nat) := by
    rw [Nat.cast_mul, Nat.cast_succ, cast_millisPerDay]
    linarith
  have hlast : (serialCount s : ℚ) < ((n + 1) * millisPerDay + 1 : Nat) := by
    rw [Nat.cast_succ, Nat.cast_mul, Nat.cast_succ, cast_millisPerDay]
    linarith
  exact ⟨Nat.le_of_lt_succ (by exact_mod_cast hfirst), Nat.le_of_lt_succ (by exact_mod_cast hlast)⟩

/-- The time of day is carried if the count is at the end of the day. -/
theorem carriesDay_iff (hneg : s.value < 0)
    (hrest : |s.value - wholeDays s.value| = |s.value| - n) :
    CarriesDay s ↔ serialCount s = (n + 1) * millisPerDay := by
  have hlast := (serialCount_mem_day h hlow hhigh).2
  have hreach := not_congr (serialCount_lt_iff s ((n + 1) * millisPerDay))
  rw [CarriesDay, and_iff_right hneg, timeLeft, hrest]
  refine Iff.trans ?_ (hreach.symm.trans (by omega))
  rw [not_lt, Nat.cast_mul, Nat.cast_succ]
  constructor <;> intro hle <;> linarith

end

/-- **THE INSTANT OF A SERIAL** differs from its time as the count does, and by two days more if
    the time of day is carried: the day moves on in the direction of the count, away from the
    midnight that is meant. -/
theorem instant_eq (h : isSerial s = true) :
    ((serialEpoch.dayNumber * millisPerDay + forwardMillis (serialMillis s) : Int) : ℚ)
      = serialTime s.value + (serialCount s - |s.value| * millisPerDay)
        - if CarriesDay s then 2 * (millisPerDay : ℚ) else 0 := by
  rw [serialMillis_eq h]
  by_cases hsign : 0 ≤ s.value
  · -- a serial that is not negative carries into no other day
    have hcarry : ¬ CarriesDay s := fun hc => absurd hsign (not_le.mpr hc.1)
    rw [if_pos hsign, forwardMillis_natCast, if_neg hcarry, serialTime_of_nonneg hsign,
      abs_of_nonneg hsign]
    push_cast
    ring
  · -- a negative serial is n days before the epoch and a part of a day more
    obtain ⟨n, hwhole, hlow, hhigh, hrest⟩ := exists_days_of_neg (not_le.mp hsign)
    obtain ⟨hfirst, hlast⟩ := serialCount_mem_day h hlow hhigh
    have hcarry := carriesDay_iff h hlow hhigh (not_le.mp hsign) hrest
    rw [if_neg hsign, forwardMillis_neg, serialTime, hrest, hwhole]
    by_cases hc : CarriesDay s
    · rw [if_pos hc, hcarry.mp hc, Nat.mul_div_cancel _ (by decide), Nat.mul_mod_left]
      push_cast
      ring
    · have hday : serialCount s / millisPerDay = n :=
        Nat.div_eq_of_lt_le hfirst (Nat.lt_of_le_of_ne hlast (mt hcarry.mpr hc))
      have hsplit : (n : ℚ) * millisPerDay + (serialCount s % millisPerDay : Nat)
          = serialCount s := by
        rw [← hday]
        exact_mod_cast Nat.div_add_mod' (serialCount s) millisPerDay
      rw [if_neg hc, hday, ← hsplit]
      generalize serialCount s % millisPerDay = rest
      push_cast
      ring

/-- **A SERIAL IS ROUNDED TO THE MILLISECOND**, unless it is negative and its time of day is
    rounded up to midnight: then the moment is two days too early. -/
theorem ofSerial?_nearest (hfinite : s.isFinite = true) (hlow : -657435 < s.value)
    (hhigh : s.value < 2958466) :
    ∃ m, ofSerial? s = some m
      ∧ (|m.instant - serialTime s.value| ≤ 1 ↔ ¬ CarriesDay s)
      ∧ (CarriesDay s → |m.instant + 2 * millisPerDay - serialTime s.value| ≤ 1) := by
  have h := (isSerial_iff s).mpr ⟨hfinite, hlow, hhigh⟩
  obtain ⟨m, hm, hinstant⟩ := exists_ofSerial? h
  obtain ⟨hbelow, habove⟩ := serialCount_near h
  -- the error is that of rounding, and two days where the rounding carries
  have herror := instant_eq h
  rw [← hinstant, cast_millisPerDay] at herror
  rw [cast_millisPerDay] at hbelow habove ⊢
  refine ⟨m, hm, ?_⟩
  by_cases hc : CarriesDay s
  · rw [if_pos hc] at herror
    refine ⟨⟨fun hnear => ?_, fun hnot => absurd hc hnot⟩, fun _ => ?_⟩
    · have hlow := neg_le_of_abs_le hnear
      linarith
    · exact abs_le.mpr ⟨by linarith, by linarith⟩
  · rw [if_neg hc] at herror
    exact ⟨⟨fun _ => hc, fun _ => abs_le.mpr ⟨by linarith, by linarith⟩⟩,
      fun hcarry => absurd hcarry hc⟩

/-- The last double before minus two.  Its fraction rounds up to a whole day. -/
def almostTwo : Binary64 := ⟨0xbfffffffffffffff⟩

theorem value_almostTwo : almostTwo.value = -(2 - 1 / 2 ^ 52) := by
  have hunits : almostTwo.units = -(2 ^ 53 - 1) * 2 ^ (1074 - 52) := by decide +kernel
  rw [value_of_units (by decide) hunits]
  norm_num

/-- The last moment of the day before the epoch's eve, as the serial says, and two days before it
    as it is read. -/
theorem ofSerial?_nearest_almostTwo :
    almostTwo.isFinite = true ∧ -657435 < almostTwo.value ∧ almostTwo.value < 2958466
      ∧ CarriesDay almostTwo ∧ ∃ m, ofSerial? almostTwo = some m
        ∧ ¬ |m.instant - serialTime almostTwo.value| ≤ 1 := by
  have hvalue := value_almostTwo
  have hlow : -657435 < almostTwo.value := by rw [hvalue]; norm_num
  have hhigh : almostTwo.value < 2958466 := by rw [hvalue]; norm_num
  have hneg : almostTwo.value < 0 := by rw [hvalue]; norm_num
  have hcarry : CarriesDay almostTwo := by
    have hwhole : wholeDays almostTwo.value = -1 := by
      rw [wholeDays, if_neg (not_le.mpr hneg), Int.ceil_eq_iff, hvalue]
      norm_num
    refine ⟨hneg, le_trans ?_ (le_add_of_nonneg_right (halfStep_nonneg _))⟩
    rw [timeLeft, hwhole, hvalue, cast_millisPerDay]
    norm_num [abs_of_neg]
  obtain ⟨m, hm, hiff, -⟩ := ofSerial?_nearest (s := almostTwo) (by decide +kernel) hlow hhigh
  exact ⟨by decide +kernel, hlow, hhigh, hcarry, m, hm, fun hnear => hiff.mp hnear hcarry⟩

/-! ## The range of the calendar -/

/-- Half a step is the same for all sums between two powers of two, so a bound of the count
    is one of the milliseconds. -/
theorem serialCount_lt_iff_of_lt {c k : Nat} (hk : k ≤ 53) (hc : 2 ^ k + 1 ≤ c)
    (hsum : |s.value| * millisPerDay + 1 / 2 < 2 ^ (k + 1)) :
    serialCount s < c ↔ |s.value| * millisPerDay < c - (1 / 2 + 2 ^ k / 2 ^ 53) := by
  have hstep : halfStep (serialSum s) ≤ 2 ^ (k + 1) / 2 ^ 54 :=
    halfStep_le ((serialSum_lt_iff s (k + 1)).mpr hsum)
  have hsame : (2 : ℚ) ^ (k + 1) / 2 ^ 54 = 2 ^ k / 2 ^ 53 := by
    rw [pow_succ, pow_succ, mul_div_mul_right _ _ (by norm_num)]
  have hone : (2 : ℚ) ^ k / 2 ^ 53 ≤ 1 :=
    div_le_one_of_le₀ (pow_le_pow_right₀ (by norm_num) hk) (by positivity)
  have hcast : (2 : ℚ) ^ k + 1 ≤ c := by exact_mod_cast hc
  rw [serialCount_lt_iff]
  constructor
  · intro hlt
    refine lt_of_not_ge fun hge => ?_
    -- so close to the bound, the sum has passed the lower power of two
    have hlarge : 2 ^ (1074 + k) ≤ serialSum s := by
      refine Nat.not_lt.mp fun hsmall => ?_
      have hbelow := (serialSum_lt_iff s k).mp hsmall
      linarith
    have hfull := le_halfStep hlarge
    linarith
  · intro hlt
    linarith

section

variable (h : isSerial s = true)

include h

/-- The day of a serial is that of its count. -/
theorem dayNumber_of_ofSerial? {m : Moment} (hm : ofSerial? s = some m) :
    m.date.dayNumber = serialEpoch.dayNumber
      + if 0 ≤ s.value then ((serialCount s / millisPerDay : Nat) : Int)
        else -((serialCount s / millisPerDay : Nat) : Int) := by
  obtain ⟨m', hm', hinstant⟩ := exists_ofSerial? h
  obtain rfl : m' = m := Option.some.inj (hm'.symm.trans hm)
  rw [dayNumber_eq_instant, hinstant, serialMillis_eq h]
  by_cases hsign : 0 ≤ s.value
  · rw [if_pos hsign, if_pos hsign, forwardMillis_natCast]
    simp only [millisPerDay]
    omega
  · rw [if_neg hsign, if_neg hsign, forwardMillis_neg]
    simp only [millisPerDay]
    omega

/-- The year 9999 is left near the ceiling only. -/
theorem year_le_iff_value {m : Moment} (hm : ofSerial? s = some m) :
    m.date.year ≤ 9999 ↔ s.value * millisPerDay < 2958466 * millisPerDay - 33 / 64 := by
  have hstart : Date.yearStart (9999 + 1) = 3652365 := by decide
  rw [Date.year_le_iff, hstart, dayNumber_of_ofSerial? h hm, dayNumber_serialEpoch]
  by_cases hsign : 0 ≤ s.value
  · have hvalue := abs_value_lt h
    -- the bound on the count is one on the serial, less about half a millisecond
    have hbound := serialCount_lt_iff_of_lt (s := s) (c := 2958466 * millisPerDay) (k := 47)
      (by decide) (by decide) (by rw [cast_millisPerDay]; linarith)
    have hdays : (693899 : Int) + ((serialCount s / millisPerDay : Nat) : Int) < 3652365
        ↔ serialCount s < 2958466 * millisPerDay := by
      simp only [millisPerDay]
      omega
    rw [if_pos hsign, hdays, hbound, abs_of_nonneg hsign, Nat.cast_mul, Nat.cast_ofNat]
    norm_num
  · have hneg : s.value < 0 := not_le.mp hsign
    have hdays := Int.natCast_nonneg (serialCount s / millisPerDay)
    rw [if_neg hsign, cast_millisPerDay]
    exact ⟨fun _ => by linarith, fun _ => by omega⟩

/-- The year 100 is left near the floor only.  There the milliseconds can be rounded
    across it. -/
theorem le_year_iff_value {m : Moment} (hm : ofSerial? s = some m) :
    100 ≤ m.date.year ↔ -657435 * millisPerDay + 129 / 256 < s.value * millisPerDay := by
  have hstart : Date.yearStart (99 + 1) = 36465 := by decide
  have hyear : 100 ≤ m.date.year ↔ ¬ m.date.year ≤ 99 := by omega
  rw [hyear, Date.year_le_iff, hstart, dayNumber_of_ofSerial? h hm, dayNumber_serialEpoch]
  by_cases hsign : 0 ≤ s.value
  · have hdays := Int.natCast_nonneg (serialCount s / millisPerDay)
    rw [if_pos hsign, cast_millisPerDay]
    exact ⟨fun _ => by linarith, fun _ => by omega⟩
  · have hneg : s.value < 0 := not_le.mp hsign
    have hlow := ((isSerial_iff s).mp h).2.1
    -- below the epoch the count runs backwards, so that the bound turns round
    have hbound := serialCount_lt_iff_of_lt (s := s) (c := 657435 * millisPerDay) (k := 45)
      (by decide) (by decide) (by rw [cast_millisPerDay, abs_of_neg hneg]; linarith)
    have hdays : ¬ (693899 : Int) + -((serialCount s / millisPerDay : Nat) : Int) < 36465
        ↔ serialCount s < 657435 * millisPerDay := by
      simp only [millisPerDay]
      omega
    rw [if_neg hsign, hdays, hbound, abs_of_neg hneg, Nat.cast_mul, Nat.cast_ofNat,
      cast_millisPerDay]
    constructor <;> intro hlt <;> linarith

end

/-- **THE DATES OF SERIALS**: every finite serial between the floor and the ceiling is a moment,
    and no other.  Its date is one from 0100-01-01 to 9999-12-31 exactly if the serial is not so
    close to the floor or the ceiling that it is rounded to it. -/
theorem ofSerial?_range (s : Binary64) :
    ((∃ m, ofSerial? s = some m) ↔ s.isFinite = true ∧ -657435 < s.value ∧ s.value < 2958466)
      ∧ ∀ m, ofSerial? s = some m →
        (100 ≤ m.date.year ↔ -657435 * millisPerDay + 129 / 256 < s.value * millisPerDay)
        ∧ (m.date.year ≤ 9999 ↔ s.value * millisPerDay < 2958466 * millisPerDay - 33 / 64) := by
  -- only a serial has a moment; that every serial has one is shown above
  have hserial (m : Moment) (hm : ofSerial? s = some m) : isSerial s = true := by
    by_contra hnot
    rw [ofSerial?, if_neg hnot] at hm
    cases hm
  refine ⟨?_, fun m hm =>
    ⟨le_year_iff_value (hserial m hm) hm, year_le_iff_value (hserial m hm) hm⟩⟩
  rw [← isSerial_iff]
  constructor
  · rintro ⟨m, hm⟩
    exact hserial m hm
  · intro h
    obtain ⟨m, hm, -⟩ := exists_ofSerial? h
    exact ⟨m, hm⟩

/-- The first double after the floor. -/
def firstSerial : Binary64 := ⟨0xc1241035ffffffff⟩

/-- The last double before the ceiling. -/
def lastSerial : Binary64 := ⟨0x41469240ffffffff⟩

theorem value_firstSerial : firstSerial.value = -(657435 - 1 / 2 ^ 33) := by
  have hunits : firstSerial.units = -(657435 * 2 ^ 33 - 1) * 2 ^ (1074 - 33) := by decide +kernel
  rw [value_of_units (by decide) hunits]
  norm_num

theorem value_lastSerial : lastSerial.value = 2958466 - 1 / 2 ^ 31 := by
  have hunits : lastSerial.units = (2958466 * 2 ^ 31 - 1) * 2 ^ (1074 - 31) := by decide +kernel
  rw [value_of_units (by decide) hunits]
  norm_num

/-- At either end a serial is rounded out of the range of the calendar.  Both are
    accepted, as they are strictly between the bounds. -/
theorem ofSerial?_range_ends :
    (∃ m, ofSerial? firstSerial = some m ∧ m.date.year < 100)
      ∧ ∃ m, ofSerial? lastSerial = some m ∧ 9999 < m.date.year := by
  obtain ⟨hfirst, hyearFirst⟩ := ofSerial?_range firstSerial
  obtain ⟨hlast, hyearLast⟩ := ofSerial?_range lastSerial
  rw [value_firstSerial] at hfirst hyearFirst
  rw [value_lastSerial] at hlast hyearLast
  obtain ⟨m, hm⟩ := hfirst.mpr ⟨by decide +kernel, by norm_num, by norm_num⟩
  obtain ⟨n, hn⟩ := hlast.mpr ⟨by decide +kernel, by norm_num, by norm_num⟩
  refine ⟨⟨m, hm, ?_⟩, n, hn, ?_⟩
  · have hnot := mt (hyearFirst m hm).1.mp (by rw [cast_millisPerDay]; norm_num)
    omega
  · have hnot := mt (hyearLast n hn).2.mp (by rw [cast_millisPerDay]; norm_num)
    omega

end Gridbase.Moment
