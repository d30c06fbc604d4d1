import Gridbase.Json.Reading
import Gridbase.Proofs.Text.Digits

/-! # Numbers in a text of JSON

    A number ends where no character follows that could belong to one, so what is read of
    a number alone is read of it in front of anything else (`number?_append`).  An integer of
    64 bits is read back from its digits (`number?_ofInt`). -/

namespace Gridbase.Json

open Gridbase.Text

/-! ## The end of a number -/

/-- The text does not go on with a character of a number.  Behind a number stands a
    comma, a closing mark, a gap, or nothing. -/
def StopsNumber (cs : List Char) : Prop :=
  ∀ c ∈ cs.head?, c.isDigit = false ∧ c ≠ '.' ∧ c ≠ 'e' ∧ c ≠ 'E'

variable {cs rest more : List Char} {p q : NumberParts} {j : Json} {neg : Bool}

theorem StopsNumber.digits (h : StopsNumber rest) : StopsDigits rest := fun c hc => (h c hc).1

theorem head?_ne {c d : Char} (h : c ≠ d) (cs : List Char) : (c :: cs).head? ≠ some d :=
  fun heq => h (Option.some.inj heq)

/-- A zero in front is the whole part. -/
theorem wholePart?_zero (h : StopsDigits rest) :
    wholePart? ('0' :: rest) = some ({ whole := ['0'] }, rest) := by
  have hstop : rest.head?.any Char.isDigit = false := by
    cases rest with
    | nil => rfl
    | cons c rest => exact h c rfl
  rw [wholePart?, hstop]
  rfl

/-- A whole part without a zero in front has all digits that follow. -/
theorem wholePart?_of_ne (h : cs.head? ≠ some '0') :
    wholePart? cs = if (cs.takeWhile Char.isDigit).isEmpty then none
      else some ({ whole := cs.takeWhile Char.isDigit }, cs.dropWhile Char.isDigit) := by
  rw [wholePart?]
  rintro more rfl
  exact h rfl

/-- What is read of the digits before the point is read in front of other texts too. -/
theorem wholePart?_append (h : wholePart? cs = some (p, more)) (hrest : StopsDigits rest) :
    wholePart? (cs ++ rest) = some (p, more ++ rest) := by
  cases cs with
  | nil => exact nomatch h
  | cons c cs =>
      -- a zero stands alone; other digits are taken as far as they go
      by_cases hzero : c = '0'
      · subst hzero
        rw [wholePart?] at h
        split at h
        · exact nomatch h
        · rename_i hstop
          obtain ⟨rfl, rfl⟩ := Prod.mk.inj (Option.some.inj h)
          refine wholePart?_zero ?_
          cases cs with
          | nil => exact hrest
          | cons d cs => simpa [StopsDigits] using hstop
      · rw [wholePart?_of_ne (head?_ne hzero cs)] at h
        rw [List.cons_append, wholePart?_of_ne (head?_ne hzero _), ← List.cons_append,
          takeWhile_append hrest, dropWhile_append hrest]
        split at h
        · exact nomatch h
        · rename_i hdigits
          rw [if_neg hdigits]
          obtain ⟨rfl, rfl⟩ := Prod.mk.inj (Option.some.inj h)
          rfl

/-- A whole part begins with a digit. -/
theorem isDigit_of_wholePart? {c : Char} (h : wholePart? (c :: cs) = some (p, more)) :
    c.isDigit = true := by
  by_cases hzero : c = '0'
  · rw [hzero]
    rfl
  · rw [wholePart?_of_ne (head?_ne hzero cs)] at h
    by_contra hdigit
    rw [List.takeWhile_cons_of_neg hdigit] at h
    exact nomatch h

/-- Without a point there is no fraction. -/
theorem fractionPart?_of_ne (h : cs.head? ≠ some '.') : fractionPart? p cs = some (p, cs) := by
  rw [fractionPart?]
  rintro more rfl
  exact h rfl

/-- What is read of the digits after the point is read in front of other texts too. -/
theorem fractionPart?_append (h : fractionPart? p cs = some (q, more)) (hrest : StopsNumber rest) :
    fractionPart? p (cs ++ rest) = some (q, more ++ rest) := by
  cases cs with
  | nil =>
      obtain ⟨rfl, rfl⟩ := Prod.mk.inj (Option.some.inj h)
      exact fractionPart?_of_ne fun hpoint => (hrest '.' hpoint).2.1 rfl
  | cons c cs =>
      -- no point, no fraction: then what follows must not begin with one
      by_cases hpoint : c = '.'
      · subst hpoint
        rw [List.cons_append, fractionPart?, takeWhile_append hrest.digits,
          dropWhile_append hrest.digits]
        rw [fractionPart?] at h
        split at h
        · exact nomatch h
        · rename_i hdigits
          rw [if_neg hdigits]
          obtain ⟨rfl, rfl⟩ := Prod.mk.inj (Option.some.inj h)
          rfl
      · rw [fractionPart?_of_ne (head?_ne hpoint cs)] at h
        obtain ⟨rfl, rfl⟩ := Prod.mk.inj (Option.some.inj h)
        exact fractionPart?_of_ne (head?_ne hpoint _)

/-- The exponent that digits after its mark and its sign give. -/
def exponentDigits? (p : NumberParts) (neg : Bool) (body : List Char) :
    Option (NumberParts × List Char) :=
  if (body.takeWhile Char.isDigit).isEmpty then none
  else
    some ({ p with
        exponent := if neg then -(ofDigits (body.takeWhile Char.isDigit) : Int)
          else ofDigits (body.takeWhile Char.isDigit)
        isInteger := false }, body.dropWhile Char.isDigit)

theorem exponentDigits?_append (h : exponentDigits? p neg cs = some (q, more))
    (hrest : StopsDigits rest) : exponentDigits? p neg (cs ++ rest) = some (q, more ++ rest) := by
  rw [exponentDigits?] at h ⊢
  rw [takeWhile_append hrest, dropWhile_append hrest]
  split at h
  · exact nomatch h
  · rename_i hdigits
    rw [if_neg hdigits]
    obtain ⟨rfl, rfl⟩ := Prod.mk.inj (Option.some.inj h)
    rfl

/-- The sign in front of an exponent, and what follows it.  A plus is passed over. -/
def signed (cs : List Char) : Bool × List Char :=
  match cs with
  | '-' :: more => (true, more)
  | '+' :: more => (false, more)
  | _ => (false, cs)

theorem signed_append (h : cs ≠ []) (rest : List Char) :
    signed (cs ++ rest) = ((signed cs).1, (signed cs).2 ++ rest) := by
  cases cs with
  | nil => exact absurd rfl h
  | cons c cs =>
      -- either sign, or none
      by_cases hminus : c = '-'
      · subst hminus
        rfl
      · by_cases hplus : c = '+'
        · subst hplus
          rfl
        · have hnone (more : List Char) : signed (c :: more) = (false, c :: more) := by
            rw [signed]
            · rintro _ ⟨⟩
              exact hminus rfl
            · rintro _ ⟨⟩
              exact hplus rfl
          rw [List.cons_append, hnone, hnone, List.cons_append]

/-- Without its mark there is no exponent. -/
theorem exponentPart?_of_ne (h : ∀ c ∈ cs.head?, c ≠ 'e' ∧ c ≠ 'E') :
    exponentPart? p cs = some (p, cs) := by
  cases cs with
  | nil => rfl
  | cons c cs =>
      obtain ⟨hlower, hupper⟩ := h c rfl
      unfold exponentPart?
      exact if_neg (by simp [hlower, hupper])

/-- After its mark an exponent has a sign or none, and digits. -/
theorem exponentPart?_mark {c : Char} (h : c = 'e' ∨ c = 'E') (cs : List Char) :
    exponentPart? p (c :: cs) = exponentDigits? p (signed cs).1 (signed cs).2 := by
  unfold exponentPart?
  exact if_pos (by simpa using h)

/-- What is read of the exponent is read in front of other texts too. -/
theorem exponentPart?_append (h : exponentPart? p cs = some (q, more)) (hrest : StopsNumber rest) :
    exponentPart? p (cs ++ rest) = some (q, more ++ rest) := by
  cases cs with
  | nil =>
      obtain ⟨rfl, rfl⟩ := Prod.mk.inj (Option.some.inj h)
      exact exponentPart?_of_ne fun c hc => (hrest c hc).2.2
  | cons c cs =>
      by_cases hmark : c = 'e' ∨ c = 'E'
      · rw [exponentPart?_mark hmark] at h
        -- behind a mark there is at least one digit
        have hcs : cs ≠ [] := by
          rintro rfl
          exact nomatch h
        rw [List.cons_append, exponentPart?_mark hmark, signed_append hcs]
        exact exponentDigits?_append h hrest.digits
      · have hhead : ∀ d ∈ (c :: cs).head?, d ≠ 'e' ∧ d ≠ 'E' := by
          intro d hd
          obtain rfl : c = d := Option.some.inj hd
          exact not_or.mp hmark
        rw [exponentPart?_of_ne hhead] at h
        obtain ⟨rfl, rfl⟩ := Prod.mk.inj (Option.some.inj h)
        exact exponentPart?_of_ne (by exact hhead)

theorem unsignedNumber?_append (h : unsignedNumber? neg cs = some (j, more))
    (hrest : StopsNumber rest) : unsignedNumber? neg (cs ++ rest) = some (j, more ++ rest) := by
  obtain ⟨⟨p, afterWhole⟩, hwhole, h⟩ := Option.bind_eq_some_iff.mp h
  obtain ⟨⟨q, afterFraction⟩, hfraction, h⟩ := Option.bind_eq_some_iff.mp h
  obtain ⟨⟨r, afterExponent⟩, hexponent, h⟩ := Option.bind_eq_some_iff.mp h
  obtain ⟨value, hvalue, h⟩ := Option.bind_eq_some_iff.mp h
  obtain ⟨rfl, rfl⟩ := Prod.mk.inj (Option.some.inj h)
  simp only [unsignedNumber?, wholePart?_append hwhole hrest.digits,
    fractionPart?_append hfraction hrest, exponentPart?_append hexponent hrest,
    Option.bind_eq_bind, Option.bind_some, hvalue]
  rfl

/-- A number without a minus sign. -/
theorem number?_of_ne (h : cs.head? ≠ some '-') : number? cs = unsignedNumber? false cs := by
  rw [number?]
  rintro more rfl
  exact h rfl

/-- **WHAT IS READ OF A NUMBER ALONE** is read of it in front of anything else.  This is
    what lets a number stand in an array or an object. -/
theorem number?_append (h : number? cs = some (j, more)) (hrest : StopsNumber rest) :
    number? (cs ++ rest) = some (j, more ++ rest) := by
  cases cs with
  | nil => exact nomatch h
  | cons c cs =>
      by_cases hminus : c = '-'
      · subst hminus
        exact unsignedNumber?_append h hrest
      · rw [number?_of_ne (head?_ne hminus cs)] at h
        rw [List.cons_append, number?_of_ne (head?_ne hminus _)]
        exact unsignedNumber?_append h hrest

/-! ## Integers -/

/-- The digits of a number other than zero do not begin with a zero. -/
theorem head_digits {n : Nat} (h : 0 < n) : (digits n).head? ≠ some '0' := by
  induction n using Nat.strongRecOn with
  | ind n ih =>
      by_cases hsmall : n < 10
      · have hdigit : ∀ n < 10, 0 < n → (digits n).head? ≠ some '0' := by decide
        exact hdigit n hsmall h
      · have hlarge : 10 ≤ n := Nat.le_of_not_lt hsmall
        obtain ⟨c, cs, hcs⟩ := List.exists_cons_of_ne_nil
          (show digits (n / 10) ≠ [] from Nat.toDigits_ne_nil)
        have hhead := ih (n / 10) (Nat.div_lt_self h (by decide)) (Nat.div_pos hlarge (by decide))
        rw [hcs] at hhead
        rw [digits, Nat.toDigits_of_base_le (by decide) hlarge, ← digits, hcs]
        exact hhead

theorem wholePart?_digits (n : Nat) (rest : List Char) (hrest : StopsDigits rest) :
    wholePart? (digits n ++ rest) = some ({ whole := digits n }, rest) := by
  by_cases hzero : n = 0
  · subst hzero
    exact wholePart?_zero hrest
  · obtain ⟨c, cs, hcs⟩ := List.exists_cons_of_ne_nil (show digits n ≠ [] from Nat.toDigits_ne_nil)
    have hhead := head_digits (Nat.pos_of_ne_zero hzero)
    rw [wholePart?_of_ne (by rw [hcs] at hhead ⊢; exact hhead),
      takeWhile_digits (allDigits_digits n) hrest, dropWhile_digits (allDigits_digits n) hrest, hcs]
    rfl

/-- A number of 64 bits is its own significand. -/
theorem significand_of_lt {cs : List Char} :
    ∀ {m : Nat}, Nat.ofDigitChars 10 cs m < 2 ^ 64 →
      significand m cs = (Nat.ofDigitChars 10 cs m, 0) := by
  induction cs with
  | nil => exact fun _ => rfl
  | cons c cs ih =>
      intro m h
      rw [Nat.ofDigitChars_cons] at h ⊢
      have hnext : 10 * m + digitValue c < 2 ^ 64 := Nat.lt_of_le_of_lt (le_ofDigitChars cs _) h
      rw [significand]
      exact (if_pos hnext).trans (ih h)

/-- The integers that 64 bits hold, with or without a sign. -/
def InRange (n : Int) : Prop := -2 ^ 63 ≤ n ∧ n < 2 ^ 64

theorem unsignedNumber?_digits {n : Nat} (hn : n < 2 ^ 64) (hneg : neg = true → 0 < n ∧ n ≤ 2 ^ 63) :
    unsignedNumber? neg (digits n) = some (.integer (if neg then -(n : Int) else n), []) := by
  have hwhole := wholePart?_digits n [] (by decide)
  -- 64 bits hold the number, so that no digit is left over
  have hmantissa : significand 0 (digits n) = (n, 0) := by
    have hvalue : Nat.ofDigitChars 10 (digits n) 0 = n := ofDigits_digits n
    rw [significand_of_lt (by rwa [hvalue]), hvalue]
  have hvalue : NumberParts.value? neg { whole := digits n }
      = some (.integer (if neg then -(n : Int) else n)) := by
    rw [NumberParts.value?, List.append_nil, hmantissa]
    refine if_pos ?_
    cases neg with
    | false => rfl
    | true => simpa using hneg rfl
  rw [List.append_nil] at hwhole
  rw [unsignedNumber?, hwhole]
  show (NumberParts.value? neg { whole := digits n }).bind _ = _
  rw [hvalue]
  rfl

/-- **AN INTEGER IS READ BACK** from its digits. -/
theorem number?_ofInt {n : Int} (h : InRange n) :
    number? (ofInt n).toList = some (.integer n, []) := by
  obtain ⟨hlow, hhigh⟩ := h
  -- a minus sign is taken off first, and a digit is none
  cases n with
  | ofNat n =>
      have hhead : (digits n).head? ≠ some '-' := by
        intro heq
        exact nomatch isDigit_of_mem_digits (List.mem_of_mem_head? heq)
      have htext : (ofInt (Int.ofNat n)).toList = digits n := String.toList_ofList
      rw [htext, number?_of_ne hhead]
      have hn : n < 2 ^ 64 := Int.ofNat_lt.mp hhigh
      exact unsignedNumber?_digits hn (fun hneg => nomatch hneg)
  | negSucc n =>
      have htext : (ofInt (Int.negSucc n)).toList = '-' :: digits (n + 1) := by
        rw [ofInt, String.toList_append]
        exact congrArg ('-' :: ·) String.toList_ofList
      rw [htext]
      exact unsignedNumber?_digits (by omega) (fun _ => by omega)

end Gridbase.Json
