import Gridbase.Sheet.ColumnLetters

/-! # Column letters are a numbering

    The letters of a column are its number in base 26 with the digits from 1 for `A` to 26 for
    `Z`.  There is no digit for zero, so that every text of letters is the name of one column
    and no column has two names (`columnLetters_isNumbering`).

    The loop finds the last letter first.  Both directions are inductions on what it has found,
    the letters in reverse: `letterNumber_reversedLetters` on the loop, and
    `reversedLetters_letterNumber` on the letters. -/

namespace Gridbase.Sheet

/-! ## Letters -/

/-- The place of a letter in the alphabet, from 1 for `A` to 26 for `Z`.  No letter
    stands for zero, so this is no positional system in the usual sense. -/
def alphabetPlace (c : Char) : Nat := c.toNat - 'A'.toNat + 1

/-- A text of the letters from `A` to `Z`. -/
def Lettered (cs : List Char) : Prop := ∀ c ∈ cs, c.isUpper = true

instance (cs : List Char) : Decidable (Lettered cs) := List.decidableBAll _ cs

theorem toNat_of_isUpper {c : Char} (h : c.isUpper = true) :
    'A'.toNat ≤ c.toNat ∧ c.toNat ≤ 'Z'.toNat := of_decide_eq_true h

theorem alphabetPlace_le {c : Char} (h : c.isUpper = true) : alphabetPlace c ≤ 26 := by
  have hletter : c.toNat ≤ 90 := (toNat_of_isUpper h).2
  show c.toNat - 65 + 1 ≤ 26
  omega

theorem letter_of_digit :
    ∀ digit < 26, (letter digit).isUpper = true ∧ alphabetPlace (letter digit) = digit + 1 := by
  decide

/-- A letter is found again by its place. -/
theorem letter_alphabetPlace {c : Char} (h : c.isUpper = true) :
    letter (alphabetPlace c - 1) = c := by
  have hplace : 'A'.toNat + (c.toNat - 'A'.toNat) = c.toNat :=
    Nat.add_sub_cancel' (toNat_of_isUpper h).1
  show Char.ofNat ('A'.toNat + (c.toNat - 'A'.toNat)) = c
  rw [hplace, Char.ofNat_toNat]

/-! ## Numbers -/

/-- The number of a text of letters: each letter moves those before it up by one place.
    This is what the letters mean; how they are found is left open. -/
def letterNumber (cs : List Char) : Nat := cs.foldl (fun v c => v * 26 + alphabetPlace c) 0

theorem letterNumber_concat (cs : List Char) (c : Char) :
    letterNumber (cs ++ [c]) = letterNumber cs * 26 + alphabetPlace c := by
  rw [letterNumber, List.foldl_append]
  rfl

theorem reversedLetters_zero : reversedLetters 0 = [] := by
  rw [reversedLetters, dif_pos rfl]

/-- One step of the loop, for a column that has letters. -/
theorem reversedLetters_succ (n : Nat) :
    reversedLetters (n + 1) = letter (n % 26) :: reversedLetters (n / 26) := by
  rw [reversedLetters, dif_neg (Nat.succ_ne_zero n)]
  rfl

/-- The loop finds letters only. -/
theorem lettered_reversedLetters (n : Nat) : Lettered (reversedLetters n) := by
  induction n using reversedLetters.induct with
  | case1 =>
      rw [reversedLetters_zero]
      exact fun c hc => nomatch hc
  | case2 n hn ih =>
      obtain ⟨n, rfl⟩ := Nat.exists_eq_succ_of_ne_zero hn
      rw [reversedLetters_succ]
      exact List.forall_mem_cons.mpr ⟨(letter_of_digit _ (Nat.mod_lt n (by decide))).1, ih⟩

/-- **THE NUMBER COMES BACK** from the letters of a column. -/
theorem letterNumber_reversedLetters (n : Nat) : letterNumber (reversedLetters n).reverse = n := by
  induction n using reversedLetters.induct with
  | case1 => rw [reversedLetters_zero]; rfl
  | case2 n hn ih =>
      obtain ⟨n, rfl⟩ := Nat.exists_eq_succ_of_ne_zero hn
      have hdigit : alphabetPlace (letter (n % 26)) = n % 26 + 1 :=
        (letter_of_digit _ (Nat.mod_lt n (by decide))).2
      have hrest : letterNumber (reversedLetters (n / 26)).reverse = n / 26 := ih
      rw [reversedLetters_succ, List.reverse_cons, letterNumber_concat, hdigit, hrest]
      omega

/-- **THE LETTERS COME BACK** from their number. -/
theorem reversedLetters_letterNumber {rs : List Char} (h : Lettered rs) :
    reversedLetters (letterNumber rs.reverse) = rs := by
  induction rs with
  | nil => exact reversedLetters_zero
  | cons c rs ih =>
      obtain ⟨hc, hrs⟩ := List.forall_mem_cons.mp h
      -- the place of the last letter is one more than a remainder
      obtain ⟨digit, hdigit⟩ : ∃ digit, alphabetPlace c = digit + 1 := ⟨_, rfl⟩
      have hlt : digit < 26 := by
        have := alphabetPlace_le hc
        omega
      have hletter : letter digit = c := by
        have := letter_alphabetPlace hc
        rwa [hdigit] at this
      have hrest : (letterNumber rs.reverse * 26 + digit) / 26 = letterNumber rs.reverse := by omega
      have hlast : (letterNumber rs.reverse * 26 + digit) % 26 = digit := by omega
      rw [List.reverse_cons, letterNumber_concat, hdigit, ← Nat.add_assoc, reversedLetters_succ,
        hlast, hrest, hletter, ih hrs]

/-- Fewer letters give a smaller number.  The largest number of some letters comes right
    before the smallest of one letter more. -/
theorem letterNumber_lt {as bs : List Char} (ha : Lettered as)
    (h : as.length < bs.length) : letterNumber as.reverse < letterNumber bs.reverse := by
  -- induction on the shorter text, last letters first; each place adds at most 26
  induction as generalizing bs with
  | nil =>
      cases bs with
      | nil => exact absurd h (Nat.lt_irrefl 0)
      | cons b bs =>
          rw [List.reverse_cons, letterNumber_concat]
          exact Nat.succ_pos _
  | cons a as ih =>
      cases bs with
      | nil => exact absurd h (Nat.not_lt_zero _)
      | cons b bs =>
          obtain ⟨ha, has⟩ := List.forall_mem_cons.mp ha
          have hplace : alphabetPlace a ≤ 26 := alphabetPlace_le ha
          have hpos : 0 < alphabetPlace b := Nat.succ_pos _
          have hlt : letterNumber as.reverse < letterNumber bs.reverse :=
            ih has (Nat.lt_of_succ_lt_succ h)
          rw [List.reverse_cons, letterNumber_concat, List.reverse_cons, letterNumber_concat]
          omega

/-! ## Columns -/

theorem toList_columnLetters (n : UInt32) :
    (columnLetters n).toList = (reversedLetters n.toNat).reverse := String.toList_ofList

theorem letterNumber_columnLetters (n : UInt32) :
    letterNumber (columnLetters n).toList = n.toNat := by
  rw [toList_columnLetters, letterNumber_reversedLetters]

/-- A text of letters is the name of the column with its number. -/
theorem columnLetters_of_letterNumber {s : String} {n : UInt32} (h : Lettered s.toList)
    (hn : letterNumber s.toList = n.toNat) : columnLetters n = s := by
  have hrs : Lettered s.toList.reverse := fun c hc => h c (List.mem_reverse.mp hc)
  have hback := reversedLetters_letterNumber hrs
  rw [List.reverse_reverse, hn] at hback
  rw [columnLetters, hback, List.reverse_reverse, String.ofList_toList]

/-- **COLUMN LETTERS ARE A NUMBERING** of the texts of letters: every column from 1 on has
    letters, and their number is the column; two columns never have the same letters; a text of
    letters is the name of the column with its number; and a shorter text has a smaller number. -/
theorem columnLetters_isNumbering :
    (∀ n : UInt32, 1 ≤ n →
        columnLetters n ≠ "" ∧ Lettered (columnLetters n).toList
          ∧ letterNumber (columnLetters n).toList = n.toNat)
      ∧ (∀ m n : UInt32, columnLetters m = columnLetters n → m = n)
      ∧ (∀ (s : String) (n : UInt32),
        Lettered s.toList → letterNumber s.toList = n.toNat → columnLetters n = s)
      ∧ ∀ s t : String, Lettered s.toList → Lettered t.toList → s.length < t.length →
        letterNumber s.toList < letterNumber t.toList := by
  refine ⟨?_, ?_, ?_, ?_⟩
  · intro n hn
    refine ⟨?_, ?_, letterNumber_columnLetters n⟩
    · intro hempty
      have hnumber := letterNumber_columnLetters n
      rw [hempty] at hnumber
      have hpos : 1 ≤ n.toNat := UInt32.le_iff_toNat_le.mp hn
      exact absurd hnumber (Nat.ne_of_lt hpos)
    · intro c hc
      rw [toList_columnLetters] at hc
      exact lettered_reversedLetters n.toNat c (List.mem_reverse.mp hc)
  · intro m n h
    -- the number of the letters gives the column back
    apply UInt32.toNat_inj.mp
    rw [← letterNumber_columnLetters m, h, letterNumber_columnLetters n]
  · intro s n hs hn
    exact columnLetters_of_letterNumber hs hn
  · intro s t hs _ hlt
    have hrev : Lettered s.toList.reverse := fun c hc => hs c (List.mem_reverse.mp hc)
    have hlength : s.toList.reverse.length < t.toList.reverse.length := by
      rwa [List.length_reverse, List.length_reverse, String.length_toList, String.length_toList]
    have hnumbers := letterNumber_lt hrev hlength
    rwa [List.reverse_reverse, List.reverse_reverse] at hnumbers

/-- The names around the places where a letter is added.  After the last letter the
    first one comes again, with one more in front. -/
theorem columnLetters_isNumbering_carried :
    columnLetters 26 = "Z" ∧ columnLetters 27 = "AA" ∧ columnLetters 702 = "ZZ"
      ∧ columnLetters 703 = "AAA" ∧ letterNumber "ZZ".toList < letterNumber "AAA".toList := by
  obtain ⟨-, -, hname, hshorter⟩ := columnLetters_isNumbering
  refine ⟨?_, ?_, ?_, ?_, ?_⟩
  · exact hname "Z" 26 (by decide) (by decide)
  · exact hname "AA" 27 (by decide) (by decide)
  · exact hname "ZZ" 702 (by decide) (by decide)
  · exact hname "AAA" 703 (by decide) (by decide)
  · exact hshorter "ZZ" "AAA" (by decide) (by decide) (by decide)

end Gridbase.Sheet
