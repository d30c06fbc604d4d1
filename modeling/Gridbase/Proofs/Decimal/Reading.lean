import Gridbase.Proofs.Decimal.Notation

/-! # Reading decimals — what is read of what is written

    A reading goes through the digits of a number and keeps as many of them as fit
    (`Reads`).  From any state on, the digits that are left and their places
    (`digitsLeft`, `placesLeft`) say what it gives:

    * all digits and places, if the reading refuses what does not fit (`Reads.eq_of_refuse`);
    * all digits and places as well, if they fit (`reads_of_fits`);
    * the number that is written, if a decimal can hold it (`Reads.eq_of_representable`): then
      there are only zeros where the digits do not fit any more. -/

namespace Gridbase.Decimal

open Gridbase.Text

/-! ## Digits that are left -/

/-- The digits that a reading has before it, behind the point or not: behind it, a point
    is a character like any other. -/
def digitsLeft (point : Bool) (cs : List Char) : List Char :=
  if point then unspaced cs else wholePart (unspaced cs) ++ fractionPart (unspaced cs)

/-- The decimal places that a reading has before it. -/
def placesLeft (point : Bool) (cs : List Char) : Nat :=
  if point then (unspaced cs).length else (fractionPart (unspaced cs)).length

section

variable {point : Bool} {c : Char} {cs : List Char}

@[simp] theorem digitsLeft_nil : digitsLeft point [] = [] := by cases point <;> rfl

@[simp] theorem placesLeft_nil : placesLeft point [] = 0 := by cases point <;> rfl

theorem digitsLeft_cons (hpoint : c ≠ '.') (hspace : c ≠ '_') :
    digitsLeft point (c :: cs) = c :: digitsLeft point cs := by
  cases point <;> simp [digitsLeft, unspaced, wholePart, fractionPart, hpoint, hspace]

/-- A digit before the point has no place, and behind it one. -/
theorem add_placesLeft_cons (hpoint : c ≠ '.') (hspace : c ≠ '_') (scale : Nat) :
    scale + placesLeft point (c :: cs)
      = (if point then scale + 1 else scale) + placesLeft point cs := by
  cases point with
  | false => simp [placesLeft, unspaced, fractionPart, hpoint, hspace]
  | true =>
      have hlength : placesLeft true (c :: cs) = placesLeft true cs + 1 := by
        simp [placesLeft, unspaced, hspace]
      rw [hlength, if_pos rfl]
      omega

@[simp] theorem digitsLeft_separator : digitsLeft point ('_' :: cs) = digitsLeft point cs := by
  cases point <;> simp [digitsLeft, unspaced]

@[simp] theorem placesLeft_separator : placesLeft point ('_' :: cs) = placesLeft point cs := by
  cases point <;> simp [placesLeft, unspaced]

@[simp] theorem digitsLeft_point : digitsLeft false ('.' :: cs) = digitsLeft true cs := by
  simp [digitsLeft, unspaced, wholePart, fractionPart]

@[simp] theorem placesLeft_point : placesLeft false ('.' :: cs) = placesLeft true cs := by
  simp [placesLeft, unspaced, fractionPart]

end

/-- A digit is neither a point nor a separator. -/
theorem ne_of_isDigit {c : Char} (h : c.isDigit = true) : c ≠ '.' ∧ c ≠ '_' := by
  constructor
  · rintro rfl
    cases h
  · rintro rfl
    cases h

/-- A digit behind the point has a place. -/
theorem placesLeft_pos {cs : List Char} (h : cs.any Char.isDigit = true) :
    0 < placesLeft true cs := by
  obtain ⟨c, hc, hdigit⟩ := List.any_eq_true.mp h
  have hmem : c ∈ unspaced cs :=
    List.mem_filter.mpr ⟨hc, bne_iff_ne.mpr (ne_of_isDigit hdigit).2⟩
  exact List.length_pos_of_mem hmem

/-- A number is written in digits, of which there is one at least. -/
theorem digits?_unspaced {cs : List Char} {r : Nat × Nat} :
    digits? (unspaced cs) = some r ↔
      AllDigits (digitsLeft false cs) ∧ digitsLeft false cs ≠ []
        ∧ r = (ofDigits (digitsLeft false cs), placesLeft false cs) := by
  show (digitsOnly? (digitsLeft false cs)).map (fun n => (n, placesLeft false cs)) = some r ↔ _
  rw [digitsOnly?]
  -- either the reader refuses, and one of the two conditions fails, or both hold
  split
  · rename_i hnot
    rw [Bool.or_eq_true, List.isEmpty_iff, Bool.not_eq_true'] at hnot
    constructor
    · intro h
      cases h
    · rintro ⟨hall, hne, -⟩
      rcases hnot with hnone | hother
      · exact absurd hnone hne
      · rw [List.all_eq_true.mpr hall] at hother
        cases hother
  · rename_i hdigits
    rw [Bool.not_eq_true, Bool.or_eq_false_iff, Bool.not_eq_false', List.all_eq_true,
      List.isEmpty_eq_false_iff] at hdigits
    rw [Option.map_some, Option.some.injEq]
    constructor
    · rintro rfl
      exact ⟨hdigits.2, hdigits.1, rfl⟩
    · rintro ⟨-, -, rfl⟩
      rfl

/-! ## Readings -/

/-- The readings of digits, from a state on.  A digit that does not fit, or a place
    beyond the last, is left to the policy for excess; until then every character is
    taken by one rule. -/
inductive Reads (policy : Excess) :
    (point seen : Bool) → (m scale : Nat) → List Char → Nat × Nat → Prop
  | done {point : Bool} {m scale : Nat} : Reads policy point true m scale [] (m, scale)
  | digit {point seen : Bool} {m scale : Nat} {c : Char} {cs : List Char} {r : Nat × Nat}
      (room : point = true → scale ≠ 28) (isDigit : c.isDigit = true)
      (fits : 10 * m + digitValue c < capacity)
      (rest : Reads policy point true (10 * m + digitValue c)
        (if point then scale + 1 else scale) cs r) :
      Reads policy point seen m scale (c :: cs) r
  | point {seen : Bool} {m scale : Nat} {cs : List Char} {r : Nat × Nat}
      (rest : Reads policy true seen m scale cs r) :
      Reads policy false seen m scale ('.' :: cs) r
  | separator {point : Bool} {m scale : Nat} {cs : List Char} {r : Nat × Nat}
      (room : point = true → scale ≠ 28) (rest : Reads policy point true m scale cs r) :
      Reads policy point true m scale ('_' :: cs) r
  | excess {seen : Bool} {m scale : Nat} {c : Char} {cs : List Char} {r : Nat × Nat}
      (full : scale = 28 ∨ c.isDigit = true ∧ capacity ≤ 10 * m + digitValue c)
      (ends : excess policy c m scale = some r) :
      Reads policy true seen m scale (c :: cs) r

/-- **WHAT THE READER GIVES** is a reading.  From here on the reader itself is not
    opened again: what follows is by induction on the readings. -/
theorem reads_of_unsigned? {policy : Excess} {r : Nat × Nat} {cs : List Char} :
    ∀ {point seen : Bool} {m scale : Nat}, unsigned? policy point seen m scale cs = some r →
      Reads policy point seen m scale cs r := by
  -- induction on the text, with the state left open: every character may change it
  induction cs with
  | nil =>
      intro point seen m scale h
      rw [unsigned?] at h
      cases seen with
      | false => cases h
      | true =>
          cases h
          exact .done
  | cons c cs ih =>
      intro point seen m scale h
      rw [unsigned?] at h
      -- the cases are those of the reader, in its order: full, digit, point, separator
      split at h
      · rename_i hfull
        rw [Bool.and_eq_true, decide_eq_true_eq] at hfull
        obtain ⟨rfl, rfl⟩ := hfull
        exact .excess (.inl rfl) h
      · rename_i hroom
        have hroom : point = true → scale ≠ 28 := by simpa using hroom
        split at h
        · rename_i hdigit
          by_cases hfits : 10 * m + digitValue c < capacity
          · exact .digit hroom hdigit hfits (ih ((if_pos hfits).symm.trans h))
          · cases point with
            | false => cases (if_neg hfits).symm.trans h
            | true =>
                exact .excess (.inr ⟨hdigit, Nat.not_lt.mp hfits⟩)
                  ((if_neg hfits).symm.trans h)
        · split at h
          · rename_i hc
            subst hc
            split at h
            · cases h
            · rename_i hpoint
              rw [Bool.not_eq_true] at hpoint
              subst hpoint
              exact .point (ih h)
          · split at h
            · rename_i hc
              rw [Bool.and_eq_true, decide_eq_true_eq] at hc
              obtain ⟨rfl, rfl⟩ := hc
              exact .separator hroom (ih h)
            · cases h

/-- A reading is what the reader gives, so readings and results are the same thing. -/
theorem Reads.unsigned? {policy : Excess} {point seen : Bool} {m scale : Nat} {cs : List Char}
    {r : Nat × Nat} (h : Reads policy point seen m scale cs r) :
    unsigned? policy point seen m scale cs = some r := by
  -- the reverse: each rule of `Reads` is one branch of the reader
  induction h with
  | done => rfl
  | digit room isDigit fits rest ih =>
      rw [Decimal.unsigned?, if_neg (by simpa using room), if_pos isDigit]
      exact (if_pos fits).trans ih
  | point rest ih => exact ih
  | separator room rest ih =>
      rw [Decimal.unsigned?, if_neg (by simpa using room)]
      exact ih
  | excess full ends =>
      rw [Decimal.unsigned?]
      rcases full with hscale | ⟨isDigit, hover⟩
      · rwa [if_pos (by simp [hscale])]
      · split
        · exact ends
        · exact (if_neg (Nat.not_lt.mpr hover)).trans ends

/-! ## What a reading gives -/

section

variable {policy : Excess} {point seen : Bool} {m scale : Nat} {cs : List Char} {r : Nat × Nat}

/-- **A READING THAT REFUSES** what does not fit gives all digits with all their places.
    The policy that refuses has no rule for excess, so a reading takes every digit. -/
theorem Reads.eq_of_refuse (h : Reads .refuse point seen m scale cs r) :
    AllDigits (digitsLeft point cs) ∧ (seen = true ∨ digitsLeft point cs ≠ [])
      ∧ r = (Nat.ofDigitChars 10 (digitsLeft point cs) m, scale + placesLeft point cs) := by
  induction h with
  | done => simp [AllDigits]
  | @digit point seen m scale c cs r room isDigit fits rest ih =>
      obtain ⟨hall, -, hr⟩ := ih
      obtain ⟨hpoint, hspace⟩ := ne_of_isDigit isDigit
      rw [digitsLeft_cons hpoint hspace, add_placesLeft_cons hpoint hspace,
        Nat.ofDigitChars_cons]
      exact ⟨List.forall_mem_cons.mpr ⟨isDigit, hall⟩, .inr (by simp), hr⟩
  | point rest ih => rwa [digitsLeft_point, placesLeft_point]
  | separator room rest ih => rwa [digitsLeft_separator, placesLeft_separator]
  | excess full ends => cases ends

/-- At a zero and at a separator the reading ends with what it has. -/
theorem excess_round {c : Char} (h : excess .round c m scale = some r)
    (hzero : c.isDigit = true → digitValue c = 0) : r = (m, scale) := by
  rw [excess] at h
  split at h
  · rename_i hdigit
    rw [hzero hdigit] at h
    cases h
    rfl
  · split at h
    · cases h
      rfl
    · cases h

/-- Digits behind a place are zeros, if the number has no more places than that. -/
theorem ofDigits_eq_zero {ds : List Char} (hds : AllDigits ds) {n i : Nat} (hi : i ≤ scale)
    (h : Nat.ofDigitChars 10 ds m * 10 ^ i = n * 10 ^ (scale + ds.length)) : ofDigits ds = 0 := by
  obtain ⟨j, rfl⟩ := Nat.exists_eq_add_of_le hi
  have hwhole : m * 10 ^ ds.length + ofDigits ds = n * 10 ^ j * 10 ^ ds.length := by
    refine Nat.eq_of_mul_eq_mul_right (Nat.pow_pos (n := i) (by decide : 0 < 10)) ?_
    rw [← ofDigitChars_eq, h, Nat.pow_add, Nat.pow_add]
    ring
  have hdvd : 10 ^ ds.length ∣ ofDigits ds :=
    (Nat.dvd_add_right (Nat.dvd_mul_left ..)).mp (hwhole ▸ Nat.dvd_mul_left ..)
  exact Nat.eq_zero_of_dvd_of_lt hdvd (ofDigits_lt hds)

/-- A number that a decimal can hold has no digits but zeros where a reading is full.
    Otherwise those digits would be part of the number, and it would not fit. -/
theorem ofDigits_eq_zero_of_full {c : Char} (hds : AllDigits (digitsLeft true (c :: cs)))
    (hfull : scale = 28 ∨ c.isDigit = true ∧ capacity ≤ 10 * m + digitValue c) {n i : Nat}
    (hn : n < capacity) (hi : i ≤ 28)
    (hx : Nat.ofDigitChars 10 (digitsLeft true (c :: cs)) m * 10 ^ i
      = n * 10 ^ (scale + (digitsLeft true (c :: cs)).length)) :
    ofDigits (digitsLeft true (c :: cs)) = 0 := by
  rcases hfull with rfl | ⟨hdigit, hover⟩
  · exact ofDigits_eq_zero hds hi hx
  · rcases Nat.lt_or_ge scale i with hmore | hle
    · -- the next digit would be needed, and does not fit
      exfalso
      obtain ⟨hpoint, hspace⟩ := ne_of_isDigit hdigit
      rw [digitsLeft_cons hpoint hspace, Nat.ofDigitChars_cons, List.length_cons] at hx
      obtain ⟨j, rfl⟩ := Nat.exists_eq_add_of_lt hmore
      have hlow : capacity * 10 ^ (digitsLeft true cs).length
          ≤ Nat.ofDigitChars 10 (digitsLeft true cs) (10 * m + digitValue c) := by
        rw [ofDigitChars_eq]
        exact Nat.le_add_right_of_le (Nat.mul_le_mul_right _ hover)
      have hbig : capacity * 10 ^ (scale + ((digitsLeft true cs).length + 1))
          ≤ n * 10 ^ (scale + ((digitsLeft true cs).length + 1)) :=
        calc capacity * 10 ^ (scale + ((digitsLeft true cs).length + 1))
            = capacity * 10 ^ (digitsLeft true cs).length * 10 ^ (scale + 1) := by ring
          _ ≤ Nat.ofDigitChars 10 (digitsLeft true cs) (10 * m + digitValue c)
                * 10 ^ (scale + j + 1) :=
            Nat.mul_le_mul hlow (Nat.pow_le_pow_right (by decide) (by omega))
          _ = n * 10 ^ (scale + ((digitsLeft true cs).length + 1)) := hx
      exact absurd (Nat.le_of_mul_le_mul_right hbig (Nat.pow_pos (by decide)))
        (Nat.not_le.mpr hn)
    · exact ofDigits_eq_zero hds hle hx

/-- **A READING THAT ROUNDS** gives the number that is written, if a decimal can hold
    it.  The equation is between whole numbers, with the powers of ten on both sides,
    since division would hide which digits are zeros. -/
theorem Reads.eq_of_representable (h : Reads .round point seen m scale cs r) {n i : Nat}
    (hn : n < capacity) (hi : i ≤ 28) :
    AllDigits (digitsLeft point cs) →
      Nat.ofDigitChars 10 (digitsLeft point cs) m * 10 ^ i
        = n * 10 ^ (scale + placesLeft point cs) →
      r.1 * 10 ^ (scale + placesLeft point cs)
        = Nat.ofDigitChars 10 (digitsLeft point cs) m * 10 ^ r.2 := by
  -- induction on the reading; the sum of scale and places left is kept by every step
  induction h with
  | done =>
      intro hds hx
      rw [placesLeft_nil, digitsLeft_nil]
      rfl
  | @digit point seen m scale c cs r room isDigit fits rest ih =>
      intro hds hx
      obtain ⟨hpoint, hspace⟩ := ne_of_isDigit isDigit
      rw [digitsLeft_cons hpoint hspace] at hds
      rw [digitsLeft_cons hpoint hspace, add_placesLeft_cons hpoint hspace,
        Nat.ofDigitChars_cons] at hx ⊢
      exact ih (List.forall_mem_cons.mp hds).2 hx
  | point rest ih => rwa [digitsLeft_point, placesLeft_point]
  | separator room rest ih => rwa [digitsLeft_separator, placesLeft_separator]
  | @excess seen m scale c cs r full ends =>
      intro hds hx
      -- what is cut off is zero, since the number has a representation
      have hzero := ofDigits_eq_zero_of_full hds full hn hi hx
      have hr : r = (m, scale) := by
        refine excess_round ends fun hdigit => ?_
        obtain ⟨hpoint, hspace⟩ := ne_of_isDigit hdigit
        rw [digitsLeft_cons hpoint hspace, ofDigits_cons] at hzero
        exact (Nat.mul_eq_zero.mp (Nat.eq_zero_of_add_eq_zero hzero).1).resolve_right
          (Nat.ne_of_gt (Nat.pow_pos (by decide)))
      rw [hr, ofDigitChars_eq, hzero, Nat.add_zero, Nat.pow_add, Nat.mul_assoc,
        Nat.mul_comm (10 ^ scale)]
      rfl

/-- **DIGITS THAT FIT** are read in full, whatever is to be done with others.  The room
    of the decimal is never used up, so no policy is asked. -/
theorem reads_of_fits (policy : Excess) {cs : List Char} :
    ∀ {point seen : Bool} {m scale : Nat}, spaced seen cs = true →
      AllDigits (digitsLeft point cs) → (seen = true ∨ digitsLeft point cs ≠ []) →
      Nat.ofDigitChars 10 (digitsLeft point cs) m < capacity →
      scale + placesLeft point cs ≤ 28 →
      Reads policy point seen m scale cs
        (Nat.ofDigitChars 10 (digitsLeft point cs) m, scale + placesLeft point cs) := by
  induction cs with
  | nil =>
      intro point seen m scale _ _ hseen _ _
      rw [digitsLeft_nil, placesLeft_nil] at *
      obtain rfl : seen = true := hseen.resolve_right fun h => h rfl
      exact .done
  | cons c cs ih =>
      intro point seen m scale hspaced hds hseen hm hscale
      rw [spaced, Bool.and_eq_true] at hspaced
      obtain ⟨hc, hspaced⟩ := hspaced
      by_cases hspace : c = '_'
      · subst hspace
        obtain ⟨rfl, hdigit⟩ : seen = true ∧ cs.any Char.isDigit = true := by simpa using hc
        rw [digitsLeft_separator] at hds hm ⊢
        rw [placesLeft_separator] at hscale ⊢
        refine .separator ?_ (ih hspaced hds (.inl rfl) hm hscale)
        -- a digit follows, so there is a place left for it
        rintro rfl rfl
        have hplace := placesLeft_pos hdigit
        omega
      · by_cases hpoint : c = '.'
        · subst hpoint
          cases point with
          | false =>
              rw [digitsLeft_point] at hds hseen hm ⊢
              rw [placesLeft_point] at hscale ⊢
              refine .point (ih ?_ hds hseen hm hscale)
              simpa using hspaced
          | true => cases hds '.' (by simp [digitsLeft, unspaced])
        · rw [digitsLeft_cons hpoint hspace] at hds hm ⊢
          rw [add_placesLeft_cons hpoint hspace] at hscale ⊢
          obtain ⟨hdigit, hall⟩ := List.forall_mem_cons.mp hds
          rw [hdigit, Bool.or_true] at hspaced
          refine .digit ?_ hdigit (Nat.lt_of_le_of_lt (le_ofDigitChars _ _) hm)
            (ih hspaced hall (.inl rfl) hm hscale)
          rintro rfl rfl
          rw [if_pos rfl] at hscale
          omega

end

end Gridbase.Decimal
