import Gridbase.Proofs.Cell
import Gridbase.Proofs.Date
import Gridbase.Store.Stored
import Mathlib.Data.List.Forall2

/-! # Stored moments

    A moment is stored as its text, which ends with the seconds.  The text says the date and the
    second of the day, and nothing else of the moment (`Moment.text_eq_iff`).  So two cells that
    are read as moments of one second are stored alike, and only such (`stored_to_the_second`);
    a date without a time of day is stored as a whole. -/

namespace Gridbase

open Gridbase.Text

namespace Moment

/-- The second of the day. -/
def second (m : Moment) : Nat := m.milli / 1000

/-- The moment without the fraction of its second.  This is what is left of it when it
    has been stored. -/
def toSecond (m : Moment) : Moment where
  date := m.date
  milli := m.second * 1000
  milli_lt := Nat.lt_of_le_of_lt (Nat.div_mul_le_self m.milli 1000) m.milli_lt

theorem second_lt (m : Moment) : m.second < 86400 := by
  have hmilli := m.milli_lt
  rw [millisPerDay] at hmilli
  rw [second]
  omega

theorem toSecond_eq_iff {a b : Moment} :
    a.toSecond = b.toSecond ↔ a.date = b.date ∧ a.second = b.second := by
  constructor
  · intro h
    obtain ⟨hdate, hmilli⟩ := Moment.mk.inj h
    exact ⟨hdate, Nat.eq_of_mul_eq_mul_right (by decide) hmilli⟩
  · rintro ⟨hdate, hsecond⟩
    simp only [toSecond, hdate, hsecond]

/-! ## Text -/

theorem clockText_eq (m : Moment) :
    m.clockText = padded 2 (m.second / 3600) ++ ':' :: (padded 2 (m.second / 60 % 60)
      ++ ':' :: padded 2 (m.second % 60)) :=
  List.append_assoc ..

theorem length_clockText (m : Moment) : m.clockText.length = 8 := by
  have hsecond := m.second_lt
  rw [clockText_eq]
  simp only [List.length_append, List.length_cons]
  rw [length_padded (by decide) (by omega), length_padded (by decide) (by omega),
    length_padded (by decide) (by omega)]

/-- Hours, minutes and seconds make up the second of the day. -/
theorem second_of_clockText {a b : Moment} (h : a.clockText = b.clockText) :
    a.second = b.second := by
  have ha := a.second_lt
  have hb := b.second_lt
  rw [clockText_eq, clockText_eq] at h
  have hwidth {m n : Nat} (hm : m < 10 ^ 2) (hn : n < 10 ^ 2) :
      (padded 2 m).length = (padded 2 n).length := by
    rw [length_padded (by decide) hm, length_padded (by decide) hn]
  obtain ⟨hhour, hrest⟩ := List.append_inj h (hwidth (by omega) (by omega))
  obtain ⟨hminute, hlast⟩ := List.append_inj (List.cons.inj hrest).2 (hwidth (by omega) (by omega))
  have hour := padded_inj hhour
  have minute := padded_inj hminute
  have second := padded_inj (List.cons.inj hlast).2
  omega

/-- **THE TEXT OF A MOMENT** says its date and the second of its day.  The date is read
    back from its part of the text, and the clock from two digits each. -/
theorem text_eq_iff {a b : Moment} : a.text = b.text ↔ a.toSecond = b.toSecond := by
  rw [toSecond_eq_iff]
  constructor
  · intro h
    obtain ⟨hdate, hclock⟩ := List.append_inj' (String.ofList_inj.mp h)
      (by rw [List.length_cons, List.length_cons, length_clockText, length_clockText])
    exact ⟨Date.text_inj hdate, second_of_clockText (List.cons.inj hclock).2⟩
  · rintro ⟨hdate, hsecond⟩
    rw [text, text, clockText_eq, clockText_eq, hdate, hsecond]

end Moment

/-! ## Cells -/

/-- The value without the fraction of a second. -/
def Value.toSecond : Value → Value
  | .moment m => .moment m.toSecond
  | v => v

namespace Cell

/-- What is read in a column of moments is a moment. -/
theorem exists_moment {info : ColumnInfo} {text : String} {v : Value}
    (h : Cell.read .dateTime info text = .ok v) :
    ∃ m, Cell.moment text.toList = .ok m ∧ v = .moment m := by
  rw [Cell.read] at h
  cases hread : Cell.moment text.toList with
  | error fault =>
      rw [hread] at h
      cases h
  | ok m =>
      rw [hread] at h
      exact ⟨m, rfl, (Except.ok.inj h).symm⟩

/-- A text that is no number is read as the start of a date. -/
theorem toSecond_of_textDate {cs : List Char} {m : Moment} (h : Cell.moment cs = .ok m)
    (hnumber : Binary64.read? (trim cs) = none) : m.toSecond = m := by
  rw [moment_of_no_number hnumber] at h
  cases hdate : textDate? (trim cs) with
  | none =>
      rw [hdate] at h
      cases h
  | some d =>
      rw [hdate] at h
      dsimp only at h
      split at h
      · obtain rfl := Except.ok.inj h
        simp only [Moment.toSecond, Moment.second, Nat.zero_div, Nat.zero_mul]
      · cases h

/-- **A MOMENT IS STORED TO THE SECOND**: two cells are stored alike exactly if they are read as
    moments of one second, and nothing is lost of a date without a time of day. -/
theorem stored_to_the_second {info info' : ColumnInfo} {text text' : String} {a b : Value}
    (ha : Cell.read .dateTime info text = .ok a) (hb : Cell.read .dateTime info' text' = .ok b) :
    (Stored.ofValue a = Stored.ofValue b ↔ a.toSecond = b.toSecond)
      ∧ (Binary64.read? (trim text.toList) = none → a.toSecond = a) := by
  obtain ⟨m, hm, rfl⟩ := exists_moment ha
  obtain ⟨n, -, rfl⟩ := exists_moment hb
  constructor
  · show Stored.text m.text = Stored.text n.text ↔ Value.moment m.toSecond = .moment n.toSecond
    rw [Stored.text.injEq, Value.moment.injEq]
    exact Moment.text_eq_iff
  · intro hnumber
    show Value.moment m.toSecond = .moment m
    rw [toSecond_of_textDate hm hnumber]

/-- A column of moments. -/
def startColumn : ColumnInfo := { name := "Start", dataType := "DateTime", isNullable := true }

/-- The moment 432 milliseconds after the midnight of the epoch of serials: the serial
    0.000005. -/
def fraction : Value := .moment { date := Moment.serialEpoch, milli := 432 }

/-- A date, and a serial with a fraction of a second.  The second is read exactly, and
    then stored like the first. -/
theorem stored_to_the_second_start :
    Cell.read .dateTime startColumn "1899/12/30" = .ok (.moment { date := Moment.serialEpoch })
      ∧ Cell.read .dateTime startColumn "0.000005" = .ok fraction
      ∧ Stored.ofValue (.moment { date := Moment.serialEpoch }) = Stored.ofValue fraction
      ∧ fraction.toSecond = .moment { date := Moment.serialEpoch } := by
  have hdate : Cell.read .dateTime startColumn "1899/12/30"
      = .ok (.moment { date := Moment.serialEpoch }) := by decide +kernel
  have hserial : Cell.read .dateTime startColumn "0.000005" = .ok fraction := by decide +kernel
  have hstored := stored_to_the_second hdate hserial
  refine ⟨hdate, hserial, hstored.1.mpr rfl, ?_⟩
  rw [← hstored.1.mp (hstored.1.mpr rfl), hstored.2 (by decide)]

/-- **MILLISECONDS ARE NOT STORED**: cells that are read as different moments may be stored
    alike. -/
theorem stored_not_to_the_millisecond :
    ¬ ∀ (info info' : ColumnInfo) (text text' : String) (a b : Moment),
      Cell.read .dateTime info text = .ok (.moment a) →
      Cell.read .dateTime info' text' = .ok (.moment b) →
      Stored.ofValue (.moment a) = Stored.ofValue (.moment b) → a = b := by
  intro h
  have hsame := h startColumn startColumn "0.000005" "0" { date := Moment.serialEpoch, milli := 432 }
    { date := Moment.serialEpoch } (by decide +kernel) (by decide +kernel) (by decide +kernel)
  exact absurd (congrArg Moment.milli hsame) (by decide)

end Cell

end Gridbase
