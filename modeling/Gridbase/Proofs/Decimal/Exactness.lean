import Gridbase.Proofs.Decimal.Reading

/-! # Either notation — which numbers are read exactly

    Plain notation is read without loss or not at all (`digits?_of_refuse`).  A number is moved by
    its exponent without loss too (`scientific?_eq`), so all that is ever lost is lost in the
    digits before the exponent, and nothing is lost of them if a decimal can hold their number
    (`number_of_round`).  Hence which numbers are read exactly (`read?_exact_iff`), and what is read
    of those that need no rounding (`read?_eq_some_iff`). -/

namespace Gridbase.Decimal

open Gridbase.Text

variable {cs : List Char} {d : Decimal}

/-- The parts of a decimal fit together again. -/
theorem ofParts?_eq_some {z : Int} {k : Nat} :
    ofParts? z k = some d ↔ d.coefficient = z ∧ d.scale = k := by
  rw [ofParts?]
  constructor
  · intro h
    split at h
    · cases h
      exact ⟨rfl, rfl⟩
    · cases h
  · rintro ⟨rfl, rfl⟩
    rw [dif_pos ⟨d.coefficient_lt, d.scale_le⟩]

/-! ## Signs -/

theorem natAbs_sign (cs : List Char) : (sign cs).natAbs = 1 := by
  rw [sign.eq_def]
  split <;> rfl

theorem natAbs_signed (cs : List Char) (n : Nat) : (sign cs * (n : Int)).natAbs = n := by
  rw [Int.natAbs_mul, natAbs_sign, Nat.one_mul, Int.natAbs_natCast]

/-- A sign is no digit. -/
theorem spaced_unsigned (h : spaced false cs = true) : spaced false (unsigned cs) = true := by
  rw [unsigned.eq_def]
  split
  · exact h
  · exact h
  · exact h

/-- Plain notation is read without its sign. -/
theorem plain?_eq (policy : Excess) (cs : List Char) :
    plain? policy cs = (unsigned? policy false false 0 0 (unsigned cs)).bind fun r =>
      ofParts? (sign cs * r.1) r.2 := by
  cases cs with
  | nil => rfl
  | cons c rest =>
      by_cases hminus : c = '-'
      · subst hminus
        simp [plain?, unsigned, sign]
      · by_cases hplus : c = '+'
        · subst hplus
          simp [plain?, unsigned, sign]
        · simp [plain?, unsigned, sign, hminus, hplus]

/-! ## Exponents -/

/-- The decimal that is a written number, as far as exponents go: they are refused
    beyond 28 in either direction, and so is a number with too many digits or places. -/
def Written.decimal? (w : Written) : Option Decimal :=
  if w.exponent.natAbs ≤ 28 then ofParts? w.digits w.decimals else none

theorem Written.decimal?_of_le {w : Written} (h : w.exponent.natAbs ≤ 28) :
    w.decimal? = ofParts? w.digits w.decimals := if_pos h

theorem Written.decimal?_of_lt {w : Written} (h : 28 < w.exponent.natAbs) : w.decimal? = none :=
  if_neg (Nat.not_le.mpr h)

theorem Written.decimal?_eq_some_iff {w : Written} :
    w.decimal? = some d ↔
      w.exponent.natAbs ≤ 28 ∧ d.coefficient = w.digits ∧ d.scale = w.decimals := by
  rw [decimal?]
  split
  · rename_i hle
    rw [ofParts?_eq_some, and_iff_right hle]
  · rename_i hlt
    constructor
    · intro h
      cases h
    · rintro ⟨hle, -⟩
      exact absurd hle hlt

/-- The decimal is the number. -/
theorem Written.number_of_decimal? {w : Written} (h : w.decimal? = some d) :
    d.number = w.number := by
  obtain ⟨-, hdigits, hdecimals⟩ := decimal?_eq_some_iff.mp h
  rw [number_eq, Decimal.number, hdigits, hdecimals]

/-- A decimal that is moved by an exponent, as it is written: the exponent is still to
    be applied. -/
def moved (d : Decimal) (e : Int) : Written := ⟨d.coefficient, d.scale, e⟩

theorem number_moved (d : Decimal) (e : Int) : (d.moved e).number = d.number * 10 ^ e := rfl

theorem shiftUp?_eq (d : Decimal) (n : Nat) : shiftUp? d n = (d.moved n).decimal? := by
  have hdecimals : (d.moved n).decimals = d.scale - n := Int.toNat_sub d.scale n
  rw [shiftUp?]
  by_cases hle : n ≤ d.scale
  · have hdigits : (d.moved n).digits = d.coefficient :=
      Written.digits_of_le (Int.ofNat_le.mpr hle)
    rw [if_pos hle, Written.decimal?_of_le (Nat.le_trans hle d.scale_le), hdigits, hdecimals]
  · have hdigits : (d.moved n).digits = d.coefficient * 10 ^ (n - d.scale) :=
      congrArg (d.coefficient * 10 ^ ·) (Int.toNat_sub n d.scale)
    rw [if_neg hle]
    by_cases hn : 28 < n
    · exact (if_pos hn).trans (Written.decimal?_of_lt (w := d.moved n) hn).symm
    · rw [if_neg hn, Written.decimal?_of_le (w := d.moved n) (Nat.not_lt.mp hn), hdigits,
        hdecimals, Nat.sub_eq_zero_of_le (Nat.le_of_not_le hle)]

theorem shiftDown?_eq (d : Decimal) (n : Nat) : shiftDown? d n = (d.moved (-n)).decimal? := by
  have hexponent : (d.moved (-n)).exponent.natAbs = n :=
    (Int.natAbs_neg n).trans (Int.natAbs_natCast n)
  have hdigits : (d.moved (-n)).digits = d.coefficient :=
    Written.digits_of_le (by show -(n : Int) ≤ d.scale; omega)
  have hdecimals : (d.moved (-n)).decimals = d.scale + n := by
    show ((d.scale : Int) - -n).toNat = d.scale + n
    omega
  rw [shiftDown?]
  by_cases hn : 28 < n
  · rw [if_pos hn, Written.decimal?_of_lt (by rwa [hexponent])]
  · rw [if_neg hn, Written.decimal?_of_le (by rw [hexponent]; exact Nat.not_lt.mp hn), hdigits,
      hdecimals]

/-- An exponent of more than 32 bits is too large as well. -/
theorem exponentSize?_bind (rest : List Char) {shift : Nat → Option Decimal}
    (hlarge : ∀ n, 28 < n → shift n = none) :
    (exponentSize? rest).bind shift = (readNat? rest).bind shift := by
  rw [exponentSize?]
  cases readNat? rest with
  | none => rfl
  | some n =>
      rw [Option.bind_some, Option.bind_some]
      split
      · rfl
      · rename_i hn
        exact (hlarge n (by omega)).symm

theorem shiftUp?_of_lt (d : Decimal) {n : Nat} (h : 28 < n) : shiftUp? d n = none := by
  rw [shiftUp?_eq]
  exact Written.decimal?_of_lt h

theorem shiftDown?_of_lt (d : Decimal) {n : Nat} (h : 28 < n) : shiftDown? d n = none :=
  if_pos h

/-- An exponent is read in either direction. -/
theorem power?_bind (d : Decimal) (rest : List Char) :
    (power? rest).bind (fun e => (d.moved e).decimal?)
      = match rest with
        | '-' :: rest => (exponentSize? rest).bind d.shiftDown?
        | rest => (exponentSize? rest).bind d.shiftUp? := by
  split
  · rw [power?, exponentSize?_bind _ fun n => d.shiftDown?_of_lt, Option.bind_map]
    exact congrArg _ (funext fun n => (d.shiftDown?_eq n).symm)
  · rename_i hminus
    rw [power?.eq_2 _ hminus, exponentSize?_bind _ fun n => d.shiftUp?_of_lt, Option.bind_map]
    exact congrArg _ (funext fun n => (d.shiftUp?_eq n).symm)

/-- **EXPONENT NOTATION** is the part before the exponent, moved by it. -/
theorem scientific?_eq (hmark : cs.any isExponentMark = true) :
    scientific? cs = (plain? .round (base cs)).bind fun d =>
      (exponent? cs).bind fun e => (d.moved e).decimal? := by
  rw [scientific?, exponent?]
  refine congrArg (Option.bind (plain? .round (base cs))) (funext fun d => ?_)
  cases hrest : cs.dropWhile fun c => !isExponentMark c with
  | nil =>
      obtain ⟨c, hc, hcmark⟩ := List.any_eq_true.mp hmark
      have hnone := List.dropWhile_eq_nil_iff.mp hrest c hc
      rw [hcmark] at hnone
      cases hnone
  | cons mark rest => exact (power?_bind d rest).symm

/-! ## Plain notation -/

/-- **NOTHING IS LOST** of what plain notation is read from. -/
theorem digits?_of_refuse (h : plain? .refuse cs = some d) :
    ∃ r, digits? (unspaced (unsigned cs)) = some r ∧ ofParts? (sign cs * r.1) r.2 = some d := by
  rw [plain?_eq] at h
  obtain ⟨r, hr, hparts⟩ := Option.bind_eq_some_iff.mp h
  obtain ⟨hall, hne, rfl⟩ := (reads_of_unsigned? hr).eq_of_refuse
  refine ⟨_, digits?_unspaced.mpr ⟨hall, hne.resolve_left Bool.false_ne_true, ?_⟩, hparts⟩
  rw [Nat.zero_add]
  rfl

/-- Digits that fit are read in full. -/
theorem plain?_of_fits (policy : Excess) (hspaced : spaced false cs = true) {r : Nat × Nat}
    (hr : digits? (unspaced (unsigned cs)) = some r) (hn : r.1 < capacity) (hk : r.2 ≤ 28) :
    plain? policy cs = ofParts? (sign cs * r.1) r.2 := by
  obtain ⟨hall, hne, rfl⟩ := digits?_unspaced.mp hr
  have hreads : Reads policy false false 0 0 (unsigned cs)
      (ofDigits (digitsLeft false (unsigned cs)), 0 + placesLeft false (unsigned cs)) :=
    reads_of_fits policy (spaced_unsigned hspaced) hall (.inr hne) hn (by rwa [Nat.zero_add])
  rw [Nat.zero_add] at hreads
  rw [plain?_eq, hreads.unsigned?]
  rfl

/-- **A NUMBER THAT A DECIMAL CAN HOLD** is not rounded.  The text may have more digits
    than fit, as long as those that are too many are zeros. -/
theorem number_of_round (h : plain? .round cs = some d) {r : Nat × Nat}
    (hr : digits? (unspaced (unsigned cs)) = some r) {b : Decimal}
    (hb : b.number = ((sign cs * r.1 : Int) : ℚ) / 10 ^ r.2) : d.number = b.number := by
  rw [plain?_eq] at h
  obtain ⟨r', hr', hparts⟩ := Option.bind_eq_some_iff.mp h
  obtain ⟨hall, -, rfl⟩ := digits?_unspaced.mp hr
  obtain ⟨hcoefficient, hscale⟩ := ofParts?_eq_some.mp hparts
  have hten (k : Nat) : (10 : ℚ) ^ k ≠ 0 := pow_ne_zero k (by norm_num)
  -- the same number without fractions, and then without signs
  have hcross := hb
  rw [number, div_eq_div_iff (hten _) (hten _)] at hcross
  have hwhole : b.coefficient * 10 ^ placesLeft false (unsigned cs)
      = sign cs * ofDigits (digitsLeft false (unsigned cs)) * 10 ^ b.scale := by
    exact_mod_cast hcross
  have habs := congrArg Int.natAbs hwhole
  simp only [Int.natAbs_mul, natAbs_sign, Int.natAbs_pow, Int.natAbs_natCast, Nat.one_mul] at habs
  have hread := (reads_of_unsigned? hr').eq_of_representable b.coefficient_lt b.scale_le hall
    (by rw [Nat.zero_add]; exact habs.symm)
  rw [Nat.zero_add] at hread
  rw [hb, number, hcoefficient, hscale, div_eq_div_iff (hten _) (hten _)]
  have hsigned : sign cs * r'.1 * 10 ^ placesLeft false (unsigned cs)
      = sign cs * ofDigits (digitsLeft false (unsigned cs)) * 10 ^ r'.2 := by
    rw [Int.mul_assoc, Int.mul_assoc]
    exact congrArg (sign cs * ·) (by exact_mod_cast hread)
  exact_mod_cast hsigned

/-! ## Either notation -/

theorem base_of_plain (h : cs.any isExponentMark = false) : base cs = cs :=
  List.takeWhile_eq_self_iff.mpr fun c hc => by simpa using List.any_eq_false.mp h c hc

theorem exponent?_of_plain (h : cs.any isExponentMark = false) : exponent? cs = some 0 := by
  have hnone : cs.dropWhile (fun c => !isExponentMark c) = [] :=
    List.dropWhile_eq_nil_iff.mpr fun c hc => by simpa using List.any_eq_false.mp h c hc
  rw [exponent?, hnone]

theorem any_base (cs : List Char) : (base cs).any isExponentMark = false := by
  refine List.any_eq_false.mpr fun c hc => ?_
  simpa using List.mem_takeWhile_imp hc

/-- The number before the exponent. -/
theorem denoted?_base (cs : List Char) :
    denoted? (base cs) = (digits? (unspaced (unsigned (base cs)))).map fun r =>
      ((sign (base cs) * r.1 : Int) : ℚ) / 10 ^ r.2 := by
  rw [denoted?, written?, exponent?_of_plain (any_base cs), base_of_plain (any_base cs)]
  cases digits? (unspaced (unsigned (base cs))) with
  | none => rfl
  | some r => exact congrArg some (by rw [Written.number, zpow_zero, mul_one])

/-- A number is the one before the exponent, moved by it. -/
theorem denoted?_eq (cs : List Char) :
    denoted? cs = (denoted? (base cs)).bind fun x =>
      (exponent? cs).map fun e => x * 10 ^ e := by
  rw [denoted?_base, denoted?, written?]
  cases digits? (unspaced (unsigned (base cs))) with
  | none => rfl
  | some r =>
      cases exponent? cs with
      | none => rfl
      | some e => rfl

/-- **WHAT IS READ EXACTLY**: all of plain notation, and of exponent notation the numbers that a
    decimal can hold before the exponent moves them. -/
theorem read?_exact_iff (h : read? cs = some d) :
    (cs.any isExponentMark = false → denoted? cs = some d.number)
      ∧ (denoted? cs = some d.number ↔ ∃ b : Decimal, denoted? (base cs) = some b.number) := by
  cases hmark : cs.any isExponentMark with
  | false =>
      rw [read?, hmark] at h
      -- plain notation: the text is its own base, and nothing is rounded
      obtain ⟨r, hr, hparts⟩ := digits?_of_refuse h
      obtain ⟨hcoefficient, hscale⟩ := ofParts?_eq_some.mp hparts
      have hbase := base_of_plain hmark
      have hdenoted : denoted? cs = some d.number := by
        have hnumber := denoted?_base cs
        rw [hbase, hr] at hnumber
        rw [hnumber, number, hcoefficient, hscale]
        rfl
      exact ⟨fun _ => hdenoted, fun _ => ⟨d, by rw [hbase, hdenoted]⟩, fun _ => hdenoted⟩
  | true =>
      rw [read?, if_pos hmark, scientific?_eq hmark] at h
      obtain ⟨b, hb, h⟩ := Option.bind_eq_some_iff.mp h
      obtain ⟨e, he, h⟩ := Option.bind_eq_some_iff.mp h
      -- the exponent moves the point of the base, which is exact by itself
      have hmoved : d.number = b.number * 10 ^ e :=
        (Written.number_of_decimal? h).trans (number_moved b e)
      refine ⟨Bool.noConfusion, ?_⟩
      rw [denoted?_eq, he, hmoved]
      constructor
      · intro hdenoted
        -- a power of ten can be cancelled, so that the base is exact if the whole is
        obtain ⟨x, hx, hxe⟩ := Option.bind_eq_some_iff.mp hdenoted
        have hxe : x * 10 ^ e = b.number * 10 ^ e := Option.some.inj hxe
        exact ⟨b, by rw [hx, mul_right_cancel₀ (zpow_ne_zero e (by norm_num)) hxe]⟩
      · rintro ⟨b', hb'⟩
        have hexact := hb'
        rw [denoted?_base] at hexact
        obtain ⟨r, hr, hnumber⟩ := Option.map_eq_some_iff.mp hexact
        rw [hb', number_of_round hb hr hnumber.symm]
        rfl

/-! ## Numbers as they are written -/

/-- A decimal holds the number as it is written: its digits and places before the exponent, the
    exponent, and the digits and places that are left after it. -/
structure Written.Fits (w : Written) : Prop where
  coefficient : w.coefficient.natAbs < 2 ^ 96
  places : w.places ≤ 28
  exponent : w.exponent.natAbs ≤ 28
  digits : w.digits.natAbs < 2 ^ 96
  decimals : w.decimals ≤ 28

theorem written?_eq_some {w : Written} (h : written? cs = some w) :
    ∃ r, digits? (unspaced (unsigned (base cs))) = some r ∧ exponent? cs = some w.exponent
      ∧ w.coefficient = sign (base cs) * r.1 ∧ w.places = r.2 := by
  obtain ⟨r, hr, h⟩ := Option.bind_eq_some_iff.mp h
  obtain ⟨e, he, rfl⟩ := Option.map_eq_some_iff.mp h
  exact ⟨r, hr, he, rfl, rfl⟩

section

variable {w : Written} (h : written? cs = some w) (hspaced : spaced false (base cs) = true)

include h hspaced

/-- Plain notation is read if its digits and places fit.  Without an exponent nothing is
    rounded, so all depends on the size of the number. -/
theorem read?_plain_iff (hmark : cs.any isExponentMark = false) :
    read? cs = some d ↔
      w.coefficient.natAbs < 2 ^ 96 ∧ w.places ≤ 28 ∧ w.decimal? = some d := by
  obtain ⟨r, hr, he, hcoefficient, hplaces⟩ := written?_eq_some h
  rw [base_of_plain hmark] at hr hspaced hcoefficient
  -- without a mark there is no exponent, and the places are the decimals
  have hexponent : w.exponent = 0 := by
    rw [exponent?_of_plain hmark] at he
    exact (Option.some.inj he).symm
  have hdecimals : w.decimals = w.places := by
    rw [Written.decimals]
    omega
  have hparts : w.decimal? = ofParts? (sign cs * r.1) r.2 := by
    rw [Written.decimal?_of_le (by omega), Written.digits_of_le (by omega), hdecimals,
      hcoefficient, hplaces]
  have hread : read? cs = plain? .refuse cs := if_neg (by simp [hmark])
  rw [hread, hparts, hcoefficient, hplaces]
  constructor
  · intro hrefuse
    obtain ⟨r', hr', hd⟩ := digits?_of_refuse hrefuse
    obtain rfl : r = r' := Option.some.inj (hr.symm.trans hr')
    obtain ⟨hdigits, hscale⟩ := ofParts?_eq_some.mp hd
    exact ⟨hdigits ▸ d.coefficient_lt, hscale ▸ d.scale_le, hd⟩
  · rintro ⟨hsmall, hfew, hd⟩
    rw [natAbs_signed] at hsmall
    rw [plain?_of_fits .refuse hspaced hr hsmall hfew, hd]

/-- Exponent notation is read as it is written if nothing before the exponent is rounded. -/
theorem read?_scientific (hmark : cs.any isExponentMark = true)
    (hsmall : w.coefficient.natAbs < 2 ^ 96) (hfew : w.places ≤ 28) : read? cs = w.decimal? := by
  obtain ⟨r, hr, he, hcoefficient, hplaces⟩ := written?_eq_some h
  have hbase : plain? .round (base cs) = some ⟨w.coefficient, w.places, hsmall, hfew⟩ := by
    have hn : r.1 < capacity := by rwa [hcoefficient, natAbs_signed] at hsmall
    rw [plain?_of_fits .round hspaced hr hn (hplaces ▸ hfew), ← hcoefficient, ← hplaces]
    exact ofParts?_eq_some.mpr ⟨rfl, rfl⟩
  rw [read?, if_pos hmark, scientific?_eq hmark, hbase, Option.bind_some, he]
  rfl

/-- **WHAT IS READ OF A WRITTEN NUMBER** that needs no rounding: the number with the digits and
    places that are written, if they fit. -/
theorem read?_eq_some_iff
    (hexact : cs.any isExponentMark = true → w.coefficient.natAbs < 2 ^ 96 ∧ w.places ≤ 28) :
    read? cs = some d ↔ w.Fits ∧ d.coefficient = w.digits ∧ d.scale = w.decimals := by
  have hread : read? cs = some d ↔
      w.coefficient.natAbs < 2 ^ 96 ∧ w.places ≤ 28 ∧ w.decimal? = some d := by
    -- both notations come to the same condition on the written parts
    cases hmark : cs.any isExponentMark with
    | false => exact read?_plain_iff h hspaced hmark
    | true =>
        obtain ⟨hsmall, hfew⟩ := hexact hmark
        rw [read?_scientific h hspaced hmark hsmall hfew, and_iff_right hsmall,
          and_iff_right hfew]
  rw [hread, Written.decimal?_eq_some_iff]
  constructor
  · rintro ⟨hsmall, hfew, hexponent, hdigits, hscale⟩
    exact ⟨⟨hsmall, hfew, hexponent, hdigits ▸ d.coefficient_lt, hscale ▸ d.scale_le⟩, hdigits,
      hscale⟩
  · rintro ⟨hfits, hd⟩
    exact ⟨hfits.coefficient, hfits.places, hfits.exponent, hd⟩

end

end Gridbase.Decimal
