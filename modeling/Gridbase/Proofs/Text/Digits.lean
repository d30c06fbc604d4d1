import Gridbase.Proofs.Text
import Mathlib.Data.List.TakeWhile

/-! # Numbers as text, read back

    A number filled up with zeros keeps its value (`ofDigits_padded`), and its text has the
    width that was asked for unless the number is too large for it (`length_padded`).  A run of
    digits ends where it is followed by something else (`takeWhile_digits`), and its bytes are
    its characters (`utf8ByteSize_of_ascii`). -/

namespace Gridbase.Text

/-- A text of ASCII digits. -/
def AllDigits (cs : List Char) : Prop := ∀ c ∈ cs, c.isDigit = true

/-- The text does not go on with a digit. -/
def StopsDigits (cs : List Char) : Prop := ∀ c ∈ cs.head?, c.isDigit = false

instance (cs : List Char) : Decidable (StopsDigits cs) :=
  decidable_of_iff (cs.head?.all fun c => !c.isDigit) (by cases cs <;> simp [StopsDigits])

theorem stopsDigits_nil : StopsDigits [] := fun _ h => nomatch h

theorem stopsDigits_cons {c : Char} (h : c.isDigit = false) (cs : List Char) :
    StopsDigits (c :: cs) := by
  rintro d ⟨⟩
  exact h

theorem allDigits_digits (n : Nat) : AllDigits (digits n) := fun _ hc => isDigit_of_mem_digits hc

theorem ofDigits_digits (n : Nat) : ofDigits (digits n) = n := Nat.ofDigitChars_ten_toDigits

theorem le_ofDigitChars (cs : List Char) : ∀ m, m ≤ Nat.ofDigitChars 10 cs m := by
  induction cs with
  | nil => exact fun m => Nat.le_refl m
  | cons c cs ih =>
      intro m
      rw [Nat.ofDigitChars_cons]
      exact Nat.le_trans (by omega) (ih _)

/-- Digits that follow a number move it up by their places. -/
theorem ofDigitChars_eq (cs : List Char) :
    ∀ m, Nat.ofDigitChars 10 cs m = m * 10 ^ cs.length + ofDigits cs := by
  induction cs with
  | nil => exact fun m => (Nat.mul_one m).symm
  | cons c cs ih =>
      intro m
      have hvalue : ofDigits (c :: cs) = digitValue c * 10 ^ cs.length + ofDigits cs :=
        (ih (10 * 0 + digitValue c)).trans (by rw [Nat.mul_zero, Nat.zero_add])
      calc Nat.ofDigitChars 10 (c :: cs) m
          = (10 * m + digitValue c) * 10 ^ cs.length + ofDigits cs := ih _
        _ = m * 10 ^ (cs.length + 1) + (digitValue c * 10 ^ cs.length + ofDigits cs) := by
          rw [Nat.add_mul, Nat.mul_comm 10 m, Nat.mul_assoc, Nat.pow_succ', Nat.add_assoc]
        _ = m * 10 ^ (c :: cs).length + ofDigits (c :: cs) := by rw [hvalue, List.length_cons]

theorem ofDigits_cons (c : Char) (cs : List Char) :
    ofDigits (c :: cs) = digitValue c * 10 ^ cs.length + ofDigits cs :=
  (ofDigitChars_eq cs (10 * 0 + digitValue c)).trans (by rw [Nat.mul_zero, Nat.zero_add])

/-- A number is below the power of ten for its digits. -/
theorem ofDigits_lt {cs : List Char} (h : AllDigits cs) : ofDigits cs < 10 ^ cs.length := by
  induction cs with
  | nil => decide
  | cons c cs ih =>
      obtain ⟨hc, hcs⟩ := List.forall_mem_cons.mp h
      have hdigit : digitValue c ≤ 9 :=
        Nat.sub_le_sub_right (Char.isDigit_iff_toNat.mp hc).2 '0'.toNat
      have hplace := Nat.mul_le_mul_right (10 ^ cs.length) hdigit
      have hrest := ih hcs
      rw [ofDigits_cons, List.length_cons, Nat.pow_succ]
      omega

/-! ## Bytes -/

/-- A text of ASCII characters has one byte for each of them. -/
theorem utf8ByteSize_of_ascii {cs : List Char} (h : ∀ c ∈ cs, c.val ≤ 127) :
    (String.ofList cs).utf8ByteSize = cs.length := by
  induction cs with
  | nil => rfl
  | cons c cs ih =>
      rw [String.ofList_cons, String.utf8ByteSize_append, String.utf8ByteSize_singleton,
        ih fun d hd => h d (List.mem_cons_of_mem _ hd),
        Char.utf8Size_eq_one_iff.mpr (h c (List.mem_cons_self ..)), List.length_cons, Nat.add_comm]

/-! ## Padding -/

theorem allDigits_padded (width n : Nat) : AllDigits (padded width n) := by
  intro c hc
  rcases List.mem_append.mp hc with hzero | hdigit
  · rw [List.eq_of_mem_replicate hzero]
    rfl
  · exact isDigit_of_mem_digits hdigit

/-- **ZEROS IN FRONT** do not count. -/
theorem ofDigits_padded (width n : Nat) : ofDigits (padded width n) = n := by
  rw [ofDigits, padded, Nat.ofDigitChars_append, Nat.ofDigitChars_replicate_zero, Nat.mul_zero]
  exact Nat.ofDigitChars_ten_toDigits

/-- A number below `10 ^ width` fills the width. -/
theorem length_padded {width n : Nat} (hwidth : 0 < width) (hn : n < 10 ^ width) :
    (padded width n).length = width := by
  have hle : (digits n).length ≤ width := (Nat.length_toDigits_le_iff (by decide) hwidth).mpr hn
  rw [padded, List.length_append, List.length_replicate]
  exact Nat.sub_add_cancel hle

/-- The text of a number determines the number. -/
theorem padded_inj {width m n : Nat} (h : padded width m = padded width n) : m = n := by
  rw [← ofDigits_padded width m, h, ofDigits_padded]

/-! ## The end of a run -/

/-- A run of digits does not go on into a text that begins otherwise. -/
theorem takeWhile_append {cs rest : List Char} (h : StopsDigits rest) :
    (cs ++ rest).takeWhile Char.isDigit = cs.takeWhile Char.isDigit := by
  induction cs with
  | nil =>
      cases rest with
      | nil => rfl
      | cons c rest => exact List.takeWhile_cons_of_neg (by simp [h c rfl])
  | cons c cs ih =>
      rw [List.cons_append, List.takeWhile_cons, List.takeWhile_cons, ih]

theorem dropWhile_append {cs rest : List Char} (h : StopsDigits rest) :
    (cs ++ rest).dropWhile Char.isDigit = cs.dropWhile Char.isDigit ++ rest := by
  induction cs with
  | nil =>
      cases rest with
      | nil => rfl
      | cons c rest => exact List.dropWhile_cons_of_neg (by simp [h c rfl])
  | cons c cs ih =>
      rw [List.cons_append, List.dropWhile_cons, List.dropWhile_cons, ih]
      split <;> rfl

/-- **A RUN OF DIGITS ENDS** where no digit follows. -/
theorem takeWhile_digits {ds rest : List Char} (hds : AllDigits ds) (hrest : StopsDigits rest) :
    (ds ++ rest).takeWhile Char.isDigit = ds := by
  rw [takeWhile_append hrest, List.takeWhile_eq_self_iff.mpr hds]

theorem dropWhile_digits {ds rest : List Char} (hds : AllDigits ds) (hrest : StopsDigits rest) :
    (ds ++ rest).dropWhile Char.isDigit = rest := by
  rw [dropWhile_append hrest, List.dropWhile_eq_nil_iff.mpr hds, List.nil_append]

end Gridbase.Text
