import Gridbase.Proofs.Store.Rows
import Gridbase.Sheet.EntryForm
import Mathlib.Data.List.Forall2

/-! # Sheets that are written

    A sheet is seen through the texts at its positions; a position outside its rows is blank.
    Writing a cell changes the text at one position, however far the grid has to grow
    (`textAt_setCell`).

    An entry form has the names of its columns side by side in the first row
    (`textAt_decorated`).  The columns of a sheet are counted with 32 bits, so that nothing is
    written to the right of the last of them (`textAt_writeHeaders_beyond`). -/

namespace Gridbase.Sheet

/-! ## One cell -/

/-- **ONE ITEM IS CHANGED**: the list grows up to it by the item to fill with, and no other item is
    changed. -/
theorem getElem?_updateAt {α : Type} (fill : α) (f : α → α) :
    ∀ (n : Nat) (items : List α) (i : Nat),
      (updateAt fill f n items)[i]?
        = if i = n then some (f (items[n]?.getD fill))
          else items[i]?.or (if i < n then some fill else none) := by
  intro n
  -- induction on the position; the list may end before it
  induction n with
  | zero =>
      intro items i
      cases items with
      | nil => cases i <;> rfl
      | cons a items =>
          cases i with
          | zero => rfl
          | succ i => exact Option.or_none.symm
  | succ n ih =>
      intro items i
      cases items with
      | nil =>
          cases i with
          | zero => rfl
          | succ i =>
              have hnext := ih [] i
              simpa [updateAt] using hnext
      | cons a items =>
          cases i with
          | zero => rfl
          | succ i =>
              have hnext := ih items i
              simpa [updateAt] using hnext

/-- Where an item that is missing counts as the one to fill with, only one item is changed. -/
theorem getD_updateAt {α : Type} (fill : α) (f : α → α) (n : Nat) (items : List α) (i : Nat) :
    (updateAt fill f n items)[i]?.getD fill
      = if i = n then f (items[n]?.getD fill) else items[i]?.getD fill := by
  rw [getElem?_updateAt]
  by_cases hi : i = n
  · rw [if_pos hi, if_pos hi]
    rfl
  · rw [if_neg hi, if_neg hi]
    cases items[i]? with
    | some a => rfl
    | none => split <;> rfl

theorem textAt_eq (rows : List (List String)) (i j : Nat) :
    textAt rows i j = (rows[i]?.getD [])[j]?.getD "" := by
  rw [textAt]
  cases rows[i]? <;> rfl

theorem toNat_pos {n : UInt32} (h : n ≠ 0) : 0 < n.toNat :=
  Nat.pos_of_ne_zero fun hzero => h (UInt32.toNat_inj.mp hzero)

theorem rows_setCell {s : Sheet} {row col : UInt32} (hrow : row ≠ 0) (hcol : col ≠ 0)
    (text : String) :
    (s.setCell row col text).rows
      = updateAt [] (updateAt "" (fun _ => text) (col.toNat - 1)) (row.toNat - 1) s.rows := by
  rw [setCell, if_neg (by simp [hrow, hcol])]

/-- **ONE CELL IS WRITTEN**: the text at its position is the new one, and all others stay. -/
theorem textAt_setCell {s : Sheet} {row col : UInt32} (hrow : row ≠ 0) (hcol : col ≠ 0)
    (text : String) (i j : Nat) :
    textAt (s.setCell row col text).rows i j
      = if i + 1 = row.toNat ∧ j + 1 = col.toNat then text else textAt s.rows i j := by
  have hr := toNat_pos hrow
  have hc := toNat_pos hcol
  rw [rows_setCell hrow hcol, textAt_eq, textAt_eq, getD_updateAt]
  by_cases hi : i = row.toNat - 1
  · rw [if_pos hi, getD_updateAt, ← hi]
    by_cases hj : j = col.toNat - 1
    · rw [if_pos hj, if_pos (by omega)]
    · rw [if_neg hj, if_neg (by omega)]
  · rw [if_neg hi, if_neg (by omega)]

/-- There is no row and no column zero. -/
theorem setCell_of_zero {s : Sheet} {row col : UInt32} (h : row = 0 ∨ col = 0) (text : String) :
    s.setCell row col text = s := by
  rw [setCell, if_pos (by simpa using h)]

/-- The texts of other rows stay. -/
theorem textAt_setCell_of_row {s : Sheet} {row : UInt32} {i : Nat} (h : i + 1 ≠ row.toNat)
    (col : UInt32) (text : String) (j : Nat) :
    textAt (s.setCell row col text).rows i j = textAt s.rows i j := by
  by_cases hzero : row = 0 ∨ col = 0
  · rw [setCell_of_zero hzero]
  · rw [not_or] at hzero
    rw [textAt_setCell hzero.1 hzero.2, if_neg (fun hboth => h hboth.1)]

/-- The texts of other columns stay. -/
theorem textAt_setCell_of_col {s : Sheet} {col : UInt32} {j : Nat} (h : j + 1 ≠ col.toNat)
    (row : UInt32) (text : String) (i : Nat) :
    textAt (s.setCell row col text).rows i j = textAt s.rows i j := by
  by_cases hzero : row = 0 ∨ col = 0
  · rw [setCell_of_zero hzero]
  · rw [not_or] at hzero
    rw [textAt_setCell hzero.1 hzero.2, if_neg (fun hboth => h hboth.2)]

/-! ## Edits -/

/-- A text for a cell, as somebody who fills in a form enters it.  Any cell can be
    meant, also one that the form does not have. -/
structure CellEdit where
  row : UInt32
  col : UInt32
  text : String
deriving DecidableEq

/-- The sheet after some edits, the first one first. -/
def filledIn (s : Sheet) (edits : List CellEdit) : Sheet :=
  edits.foldl (fun s e => s.setCell e.row e.col e.text) s

/-- Edits below the first row leave it alone. -/
theorem textAt_filledIn {edits : List CellEdit} (h : ∀ e ∈ edits, 2 ≤ e.row.toNat) (j : Nat) :
    ∀ s : Sheet, textAt (s.filledIn edits).rows 0 j = textAt s.rows 0 j := by
  induction edits with
  | nil => intro s; rfl
  | cons e edits ih =>
      intro s
      obtain ⟨hfirst, hrest⟩ := List.forall_mem_cons.mp h
      have hrow : 0 + 1 ≠ e.row.toNat := by omega
      exact (ih hrest (s.setCell e.row e.col e.text)).trans
        (textAt_setCell_of_row hrow e.col e.text j)

/-! ## Forms -/

/-- The text of the first row after one header was written. -/
theorem textAt_writeHeader {k : Nat} (hk : k + 1 < 2 ^ 32) (s : Sheet) (name : String) (j : Nat) :
    textAt ((s.setCell 1 (UInt32.ofNat (k + 1)) name).setCellStyle 1 (UInt32.ofNat (k + 1))
        headerStyle).rows 0 j
      = if j = k then name else textAt s.rows 0 j := by
  have hcol : (UInt32.ofNat (k + 1)).toNat = k + 1 := UInt32.toNat_ofNat_of_lt' hk
  have hne : UInt32.ofNat (k + 1) ≠ 0 := by
    intro hzero
    rw [hzero] at hcol
    exact nomatch hcol
  show textAt (s.setCell 1 (UInt32.ofNat (k + 1)) name).rows 0 j = _
  rw [textAt_setCell (by decide) hne, hcol]
  exact if_congr ⟨fun h => Nat.succ.inj h.2, fun h => ⟨rfl, congrArg Nat.succ h⟩⟩ rfl rfl

theorem writeHeaders_cons (k : Nat) (c : FormColumn) (columns : List FormColumn) (s : Sheet) :
    writeHeaders (UInt32.ofNat (k + 1)) (c :: columns) s
      = writeHeaders (UInt32.ofNat (k + 1 + 1)) columns
          ((s.setCell 1 (UInt32.ofNat (k + 1)) c.name).setCellStyle 1 (UInt32.ofNat (k + 1))
            headerStyle) := by
  rw [writeHeaders, UInt32.ofNat_add (k + 1) 1]
  rfl

/-- Outside their columns the headers change nothing. -/
theorem textAt_writeHeaders_outside (columns : List FormColumn) {j : Nat} :
    ∀ (k : Nat) (s : Sheet), k + columns.length < 2 ^ 32 → j < k ∨ k + columns.length ≤ j →
      textAt (writeHeaders (UInt32.ofNat (k + 1)) columns s).rows 0 j = textAt s.rows 0 j := by
  induction columns with
  | nil => intro k s _ _; rfl
  | cons c columns ih =>
      intro k s hfit houtside
      rw [List.length_cons] at hfit houtside
      rw [writeHeaders_cons, ih (k + 1) _ (by omega) (by omega),
        textAt_writeHeader (by omega), if_neg (by omega)]

/-- **HEADERS STAND SIDE BY SIDE**, each in its column.  The bound keeps the numbers of
    the columns from coming again. -/
theorem textAt_writeHeaders (columns : List FormColumn) :
    ∀ (k : Nat) (s : Sheet), k + columns.length < 2 ^ 32 → ∀ (i : Nat) (c : FormColumn),
      columns[i]? = some c →
      textAt (writeHeaders (UInt32.ofNat (k + 1)) columns s).rows 0 (k + i) = c.name := by
  -- induction on the columns: the first header stays as the others are written
  induction columns with
  | nil => intro k s _ i c hc; exact nomatch hc
  | cons first columns ih =>
      intro k s hfit i c hc
      rw [List.length_cons] at hfit
      rw [writeHeaders_cons]
      cases i with
      | zero =>
          obtain rfl := Option.some.inj hc
          rw [textAt_writeHeaders_outside columns (k + 1) _ (by omega) (by omega),
            textAt_writeHeader (by omega), if_pos (by omega)]
      | succ i =>
          have hnext := ih (k + 1) ((s.setCell 1 (UInt32.ofNat (k + 1)) first.name).setCellStyle 1
            (UInt32.ofNat (k + 1)) headerStyle) (by omega) i c hc
          rwa [Nat.add_right_comm k 1 i] at hnext

/-- Styles and rules are no texts. -/
theorem rows_openColumns (columns : List FormColumn) :
    ∀ (col : UInt32) (s : Sheet), (openColumns col columns s).rows = s.rows := by
  induction columns with
  | nil => intro col s; rfl
  | cons c columns ih =>
      intro col s
      rw [openColumns, ih]
      cases validation? col c <;> rfl

theorem rows_decorated (columns : List FormColumn) (s : Sheet) :
    (decorated columns s).rows = (writeHeaders 1 columns (s.rename formName)).rows :=
  rows_openColumns columns 1 _

/-- **A FORM NAMES ITS COLUMNS** in its first row. -/
theorem textAt_decorated {columns : List FormColumn} (hfit : columns.length < 2 ^ 32) (s : Sheet)
    {i : Nat} {c : FormColumn} (hc : columns[i]? = some c) :
    textAt (decorated columns s).rows 0 i = c.name := by
  have htext := textAt_writeHeaders columns 0 (s.rename formName) (by omega) i c hc
  rw [rows_decorated, ← htext, Nat.zero_add i]
  rfl

/-- To the right of its columns a form leaves the first row as it was. -/
theorem textAt_decorated_outside {columns : List FormColumn} (hfit : columns.length < 2 ^ 32)
    (s : Sheet) {j : Nat} (hj : columns.length ≤ j) :
    textAt (decorated columns s).rows 0 j = textAt s.rows 0 j := by
  rw [rows_decorated]
  exact textAt_writeHeaders_outside columns 0 (s.rename formName) (by omega) (by omega)

/-- Nothing is ever written to the right of the last column. -/
theorem textAt_writeHeaders_beyond (columns : List FormColumn) {j : Nat} (hj : 2 ^ 32 ≤ j + 1) :
    ∀ (col : UInt32) (s : Sheet),
      textAt (writeHeaders col columns s).rows 0 j = textAt s.rows 0 j := by
  induction columns with
  | nil => intro col s; rfl
  | cons c columns ih =>
      intro col s
      have hcol : j + 1 ≠ col.toNat := Nat.ne_of_gt (Nat.lt_of_lt_of_le col.toNat_lt hj)
      rw [writeHeaders, ih]
      exact textAt_setCell_of_col hcol 1 c.name 0

/-! ## Form columns -/

/-- The columns of a form are those of the metadata, in order, and their types are
    known.  A column that is not known would have ended the check with a fault. -/
theorem formColumnsFrom_eq_ok (columns : List ColumnInfo) :
    ∀ {index : Nat} {form : List FormColumn}, formColumnsFrom index columns = .ok form →
      List.Forall₂ (fun c f => f.name = c.name ∧ ∃ t, DataType.parse? c.dataType = some t)
        columns form := by
  -- induction on the metadata, with the index left open
  induction columns with
  | nil =>
      intro index form h
      obtain rfl := Except.ok.inj h
      exact .nil
  | cons c columns ih =>
      intro index form h
      obtain ⟨f, hcolumn, h⟩ := bind_eq_ok.mp h
      obtain ⟨rest, hrest, h⟩ := bind_eq_ok.mp h
      obtain rfl := Except.ok.inj h
      refine .cons ?_ (ih hrest)
      rw [formColumn] at hcolumn
      split at hcolumn
      · exact nomatch hcolumn
      · split at hcolumn
        · next t ht =>
            obtain rfl := Except.ok.inj hcolumn
            exact ⟨rfl, t, ht⟩
        · exact nomatch hcolumn

/-- Columns with names and known types have a form. -/
theorem formColumnsFrom_isOk (columns : List ColumnInfo) :
    ∀ index, (∀ c ∈ columns, Text.allBlank c.name = false
        ∧ ∃ t, DataType.parse? c.dataType = some t) →
      ∃ form, formColumnsFrom index columns = .ok form := by
  induction columns with
  | nil => intro index _; exact ⟨[], rfl⟩
  | cons c columns ih =>
      intro index h
      obtain ⟨⟨hname, t, ht⟩, hrest⟩ := List.forall_mem_cons.mp h
      obtain ⟨rest, hrest⟩ := ih (index + 1) hrest
      have hcolumn : formColumn index c = .ok ⟨c.name, t, c.length⟩ := by
        rw [formColumn, hname, if_neg Bool.false_ne_true, ht]
      exact ⟨_, bind_eq_ok.mpr ⟨_, hcolumn, bind_eq_ok.mpr ⟨rest, hrest, rfl⟩⟩⟩

/-- **A FORM THAT WAS MADE** has the columns of the metadata, at least one, and every type is
    known. -/
theorem entryForm_eq_ok {columns : List ColumnInfo} {s form : Sheet}
    (h : entryForm columns s = .ok form) :
    columns ≠ [] ∧ ∃ formed, form = decorated formed s
      ∧ List.Forall₂ (fun c f => f.name = c.name ∧ ∃ t, DataType.parse? c.dataType = some t)
        columns formed := by
  rw [entryForm] at h
  cases hformed : formColumns columns with
  | error fault =>
      rw [hformed] at h
      exact nomatch h
  | ok formed =>
      rw [hformed] at h
      rw [formColumns] at hformed
      cases columns with
      | nil => exact nomatch hformed
      | cons c columns =>
          exact ⟨List.cons_ne_nil _ _, formed, (Except.ok.inj h).symm,
            formColumnsFrom_eq_ok _ hformed⟩

end Gridbase.Sheet
