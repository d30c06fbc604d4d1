import Gridbase.Proofs.Text
import Gridbase.Value
import Mathlib.Data.List.Basic

/-! # Values — the characters of their literals

    The literals of all values but texts are written with few characters.  What a
    reader of statements needs to know of such a literal (no comma, no blank, no
    letter of a flag) is then a question about these characters.

    NUMERALS are the characters of integers, floats and decimals, CLOCK MARKS those
    of moments, and HEX DIGITS those of bytes. -/

namespace Gridbase

namespace Text

/-! ## Digits -/

/-- The digits of numbers in base ten. -/
def decimalDigits : List Char := ['0', '1', '2', '3', '4', '5', '6', '7', '8', '9']

/-- The characters that numbers are written with, those of infinity and of what is no
    number among them. -/
def numerals : List Char := ['-', '.', 'i', 'n', 'f', 'N', 'a'] ++ decimalDigits

/-- The characters that moments are written with. -/
def clockMarks : List Char := ['+', '-', ':', ' '] ++ decimalDigits

/-- The digits that bytes are written with. -/
def hexDigits : List Char := decimalDigits ++ ['A', 'B', 'C', 'D', 'E', 'F']

theorem decimalDigits_subset_numerals : decimalDigits ⊆ numerals := by decide

theorem decimalDigits_subset_clockMarks : decimalDigits ⊆ clockMarks := by decide

theorem digits_subset (n : Nat) : digits n ⊆ decimalDigits := by
  intro c hc
  have hrange : 48 ≤ c.toNat ∧ c.toNat ≤ 57 := by
    simpa [Char.isDigit, UInt32.le_iff_toNat_le] using isDigit_of_mem_digits hc
  have hdigits : ∀ k < 58, 48 ≤ k → Char.ofNat k ∈ decimalDigits := by decide
  rw [← Char.ofNat_toNat c]
  exact hdigits c.toNat (by omega) hrange.1

section
variable {marks : List Char} (hmarks : decimalDigits ⊆ marks)
include hmarks

theorem zeros_subset (n : Nat) : List.replicate n '0' ⊆ marks := by
  intro c hc
  rw [List.eq_of_mem_replicate hc]
  exact hmarks (by decide)

theorem padded_subset (width n : Nat) : padded width n ⊆ marks :=
  List.append_subset.mpr ⟨zeros_subset hmarks _, List.Subset.trans (digits_subset n) hmarks⟩

end

/-- A point put into digits. -/
theorem pointed_subset {cs : List Char} (h : cs ⊆ decimalDigits) (n : Nat) :
    cs.take n ++ '.' :: cs.drop n ⊆ numerals := by
  have hcs : cs ⊆ numerals := List.Subset.trans h decimalDigits_subset_numerals
  exact List.append_subset.mpr ⟨List.Subset.trans (List.take_subset n cs) hcs,
    List.cons_subset.mpr ⟨by decide, List.Subset.trans (List.drop_subset n cs) hcs⟩⟩

theorem padded_ne_nil (width n : Nat) : padded width n ≠ [] := by
  rw [padded]
  exact List.append_ne_nil_of_right_ne_nil _ Nat.toDigits_ne_nil

end Text

open Text

/-! ## Numbers -/

theorem Text.ofNat_subset (n : Nat) : (ofNat n).toList ⊆ numerals := by
  rw [ofNat, String.toList_ofList]
  exact List.Subset.trans (digits_subset n) decimalDigits_subset_numerals

theorem Text.ofInt_subset (z : Int) : (ofInt z).toList ⊆ numerals := by
  cases z with
  | ofNat n => exact ofNat_subset n
  | negSucc n =>
      rw [ofInt, String.toList_append]
      exact List.append_subset.mpr ⟨by decide, ofNat_subset (n + 1)⟩

theorem Text.ofInt_ne_nil (z : Int) : (ofInt z).toList ≠ [] := by
  cases z with
  | ofNat n =>
      rw [ofInt, ofNat, String.toList_ofList]
      exact Nat.toDigits_ne_nil
  | negSucc n =>
      rw [ofInt, String.toList_append]
      exact List.append_ne_nil_of_left_ne_nil (by decide) _

namespace Binary64

theorem positional_subset {cs : List Char} (h : cs ⊆ decimalDigits) (p : Int) :
    positional cs p ⊆ numerals := by
  have hcs : cs ⊆ numerals := List.Subset.trans h decimalDigits_subset_numerals
  have hzeros (n : Nat) : List.replicate n '0' ⊆ numerals :=
    zeros_subset decimalDigits_subset_numerals n
  rw [positional]
  split
  · exact List.append_subset.mpr ⟨hcs, hzeros _⟩
  · dsimp only
    split
    · exact pointed_subset h _
    · exact List.cons_subset.mpr ⟨by decide, List.cons_subset.mpr ⟨by decide,
        List.append_subset.mpr ⟨hzeros _, hcs⟩⟩⟩

theorem positional_ne_nil {cs : List Char} (h : cs ≠ []) (p : Int) : positional cs p ≠ [] := by
  rw [positional]
  split
  · exact List.append_ne_nil_of_left_ne_nil h _
  · dsimp only
    split <;> simp

/-- A float without its sign, unless it is no number.  Its digits are the shortest that
    give it back. -/
def magnitudeText (x : Binary64) : String :=
  if !x.isFinite then "inf"
  else if x.absBits = 0 then "0"
  else String.ofList (positional (digits (shortest x.absBits).1) (shortest x.absBits).2)

theorem plainText_eq (x : Binary64) :
    x.plainText = if x.isNaN then "NaN"
      else if x.negative then "-" ++ x.magnitudeText else x.magnitudeText := rfl

theorem magnitudeText_numeral (x : Binary64) :
    x.magnitudeText.toList ≠ [] ∧ x.magnitudeText.toList ⊆ numerals := by
  rw [magnitudeText]
  split
  · decide
  · split
    · decide
    · rw [String.toList_ofList]
      exact ⟨positional_ne_nil Nat.toDigits_ne_nil _, positional_subset (digits_subset _) _⟩

theorem plainText_numeral (x : Binary64) :
    x.plainText.toList ≠ [] ∧ x.plainText.toList ⊆ numerals := by
  obtain ⟨hne, hsub⟩ := magnitudeText_numeral x
  rw [plainText_eq]
  split
  · decide
  · split
    · rw [String.toList_append]
      exact ⟨List.append_ne_nil_of_left_ne_nil (by decide) _,
        List.append_subset.mpr ⟨by decide, hsub⟩⟩
    · exact ⟨hne, hsub⟩

end Binary64

theorem Decimal.text_numeral (x : Decimal) : x.text.toList ≠ [] ∧ x.text.toList ⊆ numerals := by
  have hne : padded (x.scale + 1) x.coefficient.natAbs ≠ [] := padded_ne_nil _ _
  have hsub : padded (x.scale + 1) x.coefficient.natAbs ⊆ decimalDigits :=
    padded_subset (List.Subset.refl _) _ _
  rw [text, String.toList_ofList]
  generalize padded (x.scale + 1) x.coefficient.natAbs = all at hne hsub
  have hbody : (if x.scale = 0 then all
      else all.take (all.length - x.scale) ++ '.' :: all.drop (all.length - x.scale)) ≠ []
      ∧ (if x.scale = 0 then all
        else all.take (all.length - x.scale) ++ '.' :: all.drop (all.length - x.scale))
        ⊆ numerals := by
    split
    · exact ⟨hne, List.Subset.trans hsub decimalDigits_subset_numerals⟩
    · exact ⟨by simp, pointed_subset hsub _⟩
  split
  · exact ⟨by simp, List.cons_subset.mpr ⟨by decide, hbody.2⟩⟩
  · exact hbody

/-! ## Moments and bytes -/

theorem Date.text_subset (x : Date) : x.text ⊆ clockMarks := by
  have hpadded (width n : Nat) : padded width n ⊆ clockMarks :=
    padded_subset decimalDigits_subset_clockMarks width n
  have hyear : yearText x.year ⊆ clockMarks := by
    rw [yearText]
    split
    · exact hpadded _ _
    · refine List.cons_subset.mpr ⟨?_, hpadded _ _⟩
      split <;> decide
  exact List.append_subset.mpr ⟨List.append_subset.mpr
    ⟨hyear, List.cons_subset.mpr ⟨by decide, hpadded _ _⟩⟩,
    List.cons_subset.mpr ⟨by decide, hpadded _ _⟩⟩

theorem Moment.text_subset (x : Moment) : x.text.toList ⊆ clockMarks := by
  have hpadded (width n : Nat) : padded width n ⊆ clockMarks :=
    padded_subset decimalDigits_subset_clockMarks width n
  have hclock : x.clockText ⊆ clockMarks :=
    List.append_subset.mpr ⟨List.append_subset.mpr
      ⟨hpadded _ _, List.cons_subset.mpr ⟨by decide, hpadded _ _⟩⟩,
      List.cons_subset.mpr ⟨by decide, hpadded _ _⟩⟩
  rw [text, String.toList_ofList]
  exact List.append_subset.mpr
    ⟨x.date.text_subset, List.cons_subset.mpr ⟨by decide, hclock⟩⟩

theorem Value.hexText_subset (bytes : List UInt8) : (hexText bytes).toList ⊆ hexDigits := by
  -- the sixteen digits, one by one
  have hdigit : ∀ n < 16, (if n < 10 then Char.ofNat ('0'.toNat + n)
      else Char.ofNat ('A'.toNat + (n - 10))) ∈ hexDigits := by decide
  rw [hexText, String.toList_ofList]
  intro c hc
  obtain ⟨b, -, hcb⟩ := List.mem_flatMap.mp hc
  have hbyte : b.toNat < 256 := b.toNat_lt
  rcases List.mem_cons.mp hcb with rfl | hlow
  · exact hdigit _ (by omega)
  · rw [List.mem_singleton.mp hlow]
    exact hdigit _ (by omega)

end Gridbase
