import Gridbase.Proofs.FirstMatch
import Gridbase.Proofs.Sheet.Writing
import Mathlib.Data.List.Induction

/-! # Sheets after calls

    A sheet is written by calls, each on ONE place of it: a cell, the style of a cell or of a
    column, the rules, the name, or the protection.  What stands at a place afterwards is what the
    last call on it wrote, and without such a call what stood there before (`after_follows`).

    The step says it of one call (`cell_call`, `cellStyle?_call`, …).  A run is followed from its
    end: the last call decides, or leaves the place to the calls before it (`read_after`).  What
    calls on other places leave alone is a relation between the sheet before and after, which is
    kept from call to call (`after_of_step`). -/

namespace Gridbase.Sheet

/-! ## Calls -/

/-- A call that writes to a sheet.  Rows and columns are counted from 1, and zero is no
    place. -/
inductive Call
  | rename (name : String)
  | setCell (row col : UInt32) (text : String)
  | setCellStyle (row col : UInt32) (style : Style)
  | setColumnStyle (col : UInt32) (style : Style)
  | addValidation (v : Validation)
  | protect (p : Protection)
deriving DecidableEq

/-- The sheet after one more call. -/
def call (s : Sheet) : Call → Sheet
  | .rename name => s.rename name
  | .setCell row col text => s.setCell row col text
  | .setCellStyle row col style => s.setCellStyle row col style
  | .setColumnStyle col style => s.setColumnStyle col style
  | .addValidation v => s.addValidation v
  | .protect p => s.protect p

/-- The sheet after some calls, the first one first. -/
def after (s : Sheet) (calls : List Call) : Sheet := calls.foldl call s

theorem after_append (s : Sheet) (calls later : List Call) :
    s.after (calls ++ later) = (s.after calls).after later :=
  List.foldl_append

namespace Call

/-- The text that a call writes into a cell. -/
def text? (row col : UInt32) : Call → Option String
  | .setCell r c text => if r = row ∧ c = col then some text else none
  | _ => none

/-- The style that a call gives to a cell. -/
def cellStyle? (row col : UInt32) : Call → Option Style
  | .setCellStyle r c style => if r = row ∧ c = col then some style else none
  | _ => none

/-- The style that a call gives to a column. -/
def columnStyle? (col : UInt32) : Call → Option Style
  | .setColumnStyle c style => if c = col then some style else none
  | _ => none

/-- The rule that a call adds. -/
def validation? : Call → Option Validation
  | .addValidation v => some v
  | _ => none

/-- The name that a call gives to the sheet. -/
def name? : Call → Option String
  | .rename name => some name
  | _ => none

/-- The protection that a call sets. -/
def protection? : Call → Option Protection
  | .protect p => some p
  | _ => none

/-- The call writes into a row, counted from zero. -/
def WritesRow (i : Nat) : Call → Prop
  | .setCell r _ _ => r.toNat = i + 1
  | _ => False

/-- The call writes into a cell, counted from zero. -/
def WritesCell (i j : Nat) : Call → Prop
  | .setCell r c _ => r.toNat = i + 1 ∧ c.toNat = j + 1
  | _ => False

end Call

/-! ## Runs -/

/-- The last answer that a call gives.  Calls without an answer do not take one away. -/
def last? {β : Type} (answer : Call → Option β) (calls : List Call) : Option β :=
  calls.reverse.findSome? answer

section

variable {β : Type} {answer : Call → Option β}

theorem last?_append (calls later : List Call) :
    last? answer (calls ++ later) = (last? answer later).or (last? answer calls) := by
  rw [last?, List.reverse_append, List.findSome?_append]
  rfl

theorem last?_eq_none_iff {calls : List Call} :
    last? answer calls = none ↔ ∀ c ∈ calls, answer c = none := by
  rw [last?, List.findSome?_eq_none_iff]
  simp only [List.mem_reverse]

/-- **THE LAST CALL ON A PLACE DECIDES** what is read there.  What a call does to the
    reading is asked for, and the sheet is left open. -/
theorem read_after (read : Sheet → β)
    (hstep : ∀ s c, read (s.call c) = (answer c).getD (read s)) (s : Sheet) (calls : List Call) :
    read (s.after calls) = (last? answer calls).getD (read s) := by
  induction calls using List.reverseRecOn with
  | nil => rfl
  | append_singleton calls c ih =>
      have hrun : s.after (calls ++ [c]) = (s.after calls).call c := List.foldl_concat ..
      rw [hrun, hstep, ih, last?_append]
      show _ = ((List.findSome? answer [c]).or (last? answer calls)).getD (read s)
      rw [List.findSome?_cons]
      cases answer c <;> rfl

/-- The same for a place where nothing may stand. -/
theorem read?_after (read : Sheet → Option β)
    (hstep : ∀ s c, read (s.call c) = (answer c).or (read s)) (s : Sheet) (calls : List Call) :
    read (s.after calls) = (last? answer calls).or (read s) := by
  have hgetD : ∀ s c, read (s.call c) = ((answer c).map some).getD (read s) := by
    intro s c
    rw [hstep]
    cases answer c <;> rfl
  have hlast : last? (fun c => (answer c).map some) calls = (last? answer calls).map some := by
    rw [last?, last?, List.map_findSome?]
    rfl
  rw [read_after read hgetD, hlast]
  cases last? answer calls <;> rfl

end

/-- What every call keeps, all of them keep. -/
theorem after_of_step {R : Sheet → Sheet → Prop} (hrefl : ∀ s, R s s)
    (htrans : ∀ {a b c}, R a b → R b c → R a c) {calls : List Call}
    (hstep : ∀ c ∈ calls, ∀ s, R s (s.call c)) (s : Sheet) : R s (s.after calls) := by
  induction calls generalizing s with
  | nil => exact hrefl s
  | cons c calls ih =>
      obtain ⟨hc, hcalls⟩ := List.forall_mem_cons.mp hstep
      exact htrans (hc s) (ih hcalls (s.call c))

/-! ## Texts -/

theorem textAt_of_cell {s : Sheet} {row col : UInt32} (hrow : row ≠ 0) (hcol : col ≠ 0) :
    s.cell row col = textAt s.rows (row.toNat - 1) (col.toNat - 1) := by
  rw [cell, if_neg (by simp [hrow, hcol])]

theorem cell_of_zero {s : Sheet} {row col : UInt32} (h : row = 0 ∨ col = 0) :
    s.cell row col = "" := by
  rw [cell, if_pos (by simpa using h)]

theorem cell_setCell {s : Sheet} {row col : UInt32} (hrow : row ≠ 0) (hcol : col ≠ 0)
    (r c : UInt32) (text : String) :
    (s.setCell r c text).cell row col = if r = row ∧ c = col then text else s.cell row col := by
  by_cases hzero : r = 0 ∨ c = 0
  · rw [setCell_of_zero hzero, if_neg]
    rintro ⟨rfl, rfl⟩
    exact hzero.elim hrow hcol
  · rw [not_or] at hzero
    have hr := toNat_pos hrow
    have hc := toNat_pos hcol
    rw [textAt_of_cell hrow hcol, textAt_of_cell hrow hcol, textAt_setCell hzero.1 hzero.2]
    refine if_congr ?_ rfl rfl
    rw [← UInt32.toNat_inj, ← UInt32.toNat_inj]
    omega

/-- A cell is written by the calls on it only. -/
theorem cell_call {row col : UInt32} (hrow : row ≠ 0) (hcol : col ≠ 0) (s : Sheet) (c : Call) :
    (s.call c).cell row col = (c.text? row col).getD (s.cell row col) := by
  cases c with
  | setCell r c text =>
      refine (cell_setCell hrow hcol r c text).trans ?_
      rw [Call.text?]
      split <;> rfl
  | rename _ | setCellStyle _ _ _ | setColumnStyle _ _ | addValidation _ | protect _ => rfl

/-- To write a cell changes nothing but rows. -/
theorem call_setCell (s : Sheet) (row col : UInt32) (text : String) :
    s.call (.setCell row col text) = { s with rows := (s.setCell row col text).rows } := by
  rw [call, setCell]
  split <;> rfl

/-! ## Growth -/

/-- The text that the grid has at a position, if it reaches so far.  An empty text that
    is stored differs from none. -/
def stored? (rows : List (List String)) (i j : Nat) : Option String :=
  (rows[i]?).bind fun cells => cells[j]?

theorem stored?_eq (rows : List (List String)) (i j : Nat) :
    stored? rows i j = (rows[i]?.getD [])[j]? := by
  rw [stored?]
  cases rows[i]? <;> rfl

/-- What was there is there still, or there was nothing and now there is the item to
    fill with.  This is all that a call may do to what it does not write. -/
def Grown {α : Type} (fill : α) (before after : Option α) : Prop :=
  after = before ∨ before = none ∧ after = some fill

theorem Grown.trans {α : Type} {fill : α} {a b c : Option α} (h : Grown fill a b)
    (h' : Grown fill b c) : Grown fill a c := by
  rcases h with rfl | ⟨rfl, rfl⟩
  · exact h'
  · rcases h' with rfl | ⟨hnone, -⟩
    · exact Or.inr ⟨rfl, rfl⟩
    · exact nomatch hnone

theorem grown_updateAt {α : Type} (fill : α) (f : α → α) {n i : Nat} (h : i ≠ n)
    (items : List α) : Grown fill items[i]? (updateAt fill f n items)[i]? := by
  rw [getElem?_updateAt, if_neg h]
  cases items[i]? with
  | some a => exact Or.inl rfl
  | none =>
      split
      · exact Or.inr ⟨rfl, rfl⟩
      · exact Or.inl rfl

/-- **GROWTH ADDS EMPTY ROWS**, and leaves the rows that are not written. -/
theorem grown_row {i : Nat} {c : Call} (h : ¬ c.WritesRow i) (s : Sheet) :
    Grown [] s.rows[i]? (s.call c).rows[i]? := by
  cases c with
  | setCell r c text =>
      show Grown [] s.rows[i]? (s.setCell r c text).rows[i]?
      by_cases hzero : r = 0 ∨ c = 0
      · rw [setCell_of_zero hzero]
        exact Or.inl rfl
      · rw [not_or] at hzero
        have hr := toNat_pos hzero.1
        have hi : r.toNat ≠ i + 1 := h
        rw [rows_setCell hzero.1 hzero.2]
        exact grown_updateAt _ _ (by omega) s.rows
  | rename _ | setCellStyle _ _ _ | setColumnStyle _ _ | addValidation _ | protect _ =>
      exact Or.inl rfl

/-- **GROWTH ADDS EMPTY TEXTS**, and leaves the texts that are not written.  Rows that
    are added hold nothing, so only the written row grows to the right. -/
theorem grown_cell {i j : Nat} {c : Call} (h : ¬ c.WritesCell i j) (s : Sheet) :
    Grown "" (stored? s.rows i j) (stored? (s.call c).rows i j) := by
  cases c with
  | setCell r c text =>
      show Grown "" (stored? s.rows i j) (stored? (s.setCell r c text).rows i j)
      by_cases hzero : r = 0 ∨ c = 0
      · rw [setCell_of_zero hzero]
        exact Or.inl rfl
      · rw [not_or] at hzero
        have hr := toNat_pos hzero.1
        have hc := toNat_pos hzero.2
        have hcell : ¬ (r.toNat = i + 1 ∧ c.toNat = j + 1) := h
        rw [rows_setCell hzero.1 hzero.2, stored?_eq, stored?_eq, getD_updateAt]
        -- in the same row another cell may be filled in, in other rows nothing changes
        by_cases hi : i = r.toNat - 1
        · rw [if_pos hi, ← hi]
          exact grown_updateAt _ _ (by omega) _
        · rw [if_neg hi]
          exact Or.inl rfl
  | rename _ | setCellStyle _ _ _ | setColumnStyle _ _ | addValidation _ | protect _ =>
      exact Or.inl rfl

/-! ## Styles -/

theorem cellStyles_setCellStyle (s : Sheet) (row col : UInt32) (style : Style) :
    (s.setCellStyle row col style).cellStyles
      = putFirst (fun c => c.row = row && c.col = col) (fun c => { c with style })
          ⟨row, col, style⟩ s.cellStyles := by
  have hput : ∀ styles : List StyledCell, putCellStyle row col style styles
      = putFirst (fun c => c.row = row && c.col = col) (fun c => { c with style })
          ⟨row, col, style⟩ styles := by
    intro styles
    induction styles with
    | nil => rfl
    | cons c styles ih => rw [putCellStyle, putFirst, ih]
  exact hput s.cellStyles

theorem columnStyles_setColumnStyle (s : Sheet) (col : UInt32) (style : Style) :
    (s.setColumnStyle col style).columnStyles
      = putFirst (fun c => decide (c.col = col)) (fun c => { c with style }) ⟨col, style⟩
          s.columnStyles := by
  have hput : ∀ styles : List StyledColumn, putColumnStyle col style styles
      = putFirst (fun c => decide (c.col = col)) (fun c => { c with style }) ⟨col, style⟩
          styles := by
    intro styles
    induction styles with
    | nil => rfl
    | cons c styles ih =>
        rw [putColumnStyle, putFirst, ih]
        simp only [decide_eq_true_eq]
  exact hput s.columnStyles

/-- A cell is styled by the calls on it only.  A style that it had is replaced. -/
theorem cellStyle?_call (row col : UInt32) (s : Sheet) (c : Call) :
    (s.call c).cellStyle? row col = (c.cellStyle? row col).or (s.cellStyle? row col) := by
  cases c with
  | setCellStyle r c style =>
      show (s.setCellStyle r c style).cellStyle? row col = _
      rw [Call.cellStyle?, cellStyle?, cellStyles_setCellStyle]
      split
      next h =>
        obtain ⟨rfl, rfl⟩ := h
        exact find?_putFirst (p := fun x : StyledCell => x.row = r && x.col = c)
          (f := fun x => { x with style }) (a := ⟨r, c, style⟩) (fun _ h => h) (by simp)
          (fun _ => rfl) rfl s.cellStyles
      next h =>
        -- the style of another cell is passed by
        have hapart : ∀ x : StyledCell, (x.row = r && x.col = c) = true →
            (x.row = row && x.col = col) = false := by
          intro x hx
          grind
        rw [find?_putFirst_of_apart (f := fun x => { x with style }) (a := ⟨r, c, style⟩) hapart
          (fun x hx => hapart x hx) (hapart _ (by simp))]
        rfl
  | setCell r c text =>
      rw [call_setCell]
      rfl
  | rename _ | setColumnStyle _ _ | addValidation _ | protect _ => rfl

/-- A column is styled by the calls on it only.  A style that it had is replaced. -/
theorem columnStyle?_call (col : UInt32) (s : Sheet) (c : Call) :
    (s.call c).columnStyle? col = (c.columnStyle? col).or (s.columnStyle? col) := by
  cases c with
  | setColumnStyle c style =>
      show (s.setColumnStyle c style).columnStyle? col = _
      rw [Call.columnStyle?, columnStyle?, columnStyles_setColumnStyle]
      split
      next h =>
        subst h
        exact find?_putFirst (p := fun x : StyledColumn => decide (x.col = c))
          (f := fun x => { x with style }) (a := ⟨c, style⟩) (fun _ h => h) (by simp)
          (fun _ => rfl) rfl s.columnStyles
      next h =>
        -- the style of another column is passed by
        have hapart : ∀ x : StyledColumn, decide (x.col = c) = true →
            decide (x.col = col) = false := by
          intro x hx
          grind
        rw [find?_putFirst_of_apart (f := fun x => { x with style }) (a := ⟨c, style⟩) hapart
          (fun x hx => hapart x hx) (hapart _ (by simp))]
        rfl
  | setCell r c text =>
      rw [call_setCell]
      rfl
  | rename _ | setCellStyle _ _ _ | addValidation _ | protect _ => rfl

/-- The styles of other cells stay in their places. -/
theorem cellStyles_call {e : StyledCell} {c : Call} (h : c.cellStyle? e.row e.col = none)
    (s : Sheet) (i : Nat) :
    (s.call c).cellStyles[i]? = some e ↔ s.cellStyles[i]? = some e := by
  cases c with
  | setCellStyle r c style =>
      show (s.setCellStyle r c style).cellStyles[i]? = some e ↔ _
      have hother : (e.row = r && e.col = c) = false := by
        rw [Call.cellStyle?] at h
        grind
      rw [cellStyles_setCellStyle]
      exact getElem?_putFirst (p := fun x : StyledCell => x.row = r && x.col = c)
        (f := fun x => { x with style }) (a := ⟨r, c, style⟩) (fun _ h => h) (by simp) hother
        s.cellStyles i
  | setCell r c text =>
      rw [call_setCell]
  | rename _ | setColumnStyle _ _ | addValidation _ | protect _ => exact Iff.rfl

/-- The styles of other columns stay in their places. -/
theorem columnStyles_call {e : StyledColumn} {c : Call} (h : c.columnStyle? e.col = none)
    (s : Sheet) (i : Nat) :
    (s.call c).columnStyles[i]? = some e ↔ s.columnStyles[i]? = some e := by
  cases c with
  | setColumnStyle c style =>
      show (s.setColumnStyle c style).columnStyles[i]? = some e ↔ _
      have hother : decide (e.col = c) = false := by
        rw [Call.columnStyle?] at h
        grind
      rw [columnStyles_setColumnStyle]
      exact getElem?_putFirst (p := fun x : StyledColumn => decide (x.col = c))
        (f := fun x => { x with style }) (a := ⟨c, style⟩) (fun _ h => h) (by simp) hother
        s.columnStyles i
  | setCell r c text =>
      rw [call_setCell]
  | rename _ | setCellStyle _ _ _ | addValidation _ | protect _ => exact Iff.rfl

/-! ## Rules, name and protection -/

theorem validations_call (s : Sheet) (c : Call) :
    (s.call c).validations = s.validations ++ c.validation?.toList := by
  cases c with
  | addValidation v => rfl
  | setCell r c text =>
      rw [call_setCell]
      exact (List.append_nil _).symm
  | rename _ | setCellStyle _ _ _ | setColumnStyle _ _ | protect _ =>
      exact (List.append_nil _).symm

theorem validations_after (s : Sheet) (calls : List Call) :
    (s.after calls).validations = s.validations ++ calls.filterMap Call.validation? := by
  induction calls generalizing s with
  | nil => exact (List.append_nil _).symm
  | cons c calls ih =>
      have hrest : (s.after (c :: calls)).validations
          = (s.call c).validations ++ calls.filterMap Call.validation? := ih (s.call c)
      rw [hrest, validations_call, List.append_assoc, List.filterMap_cons]
      cases c.validation? <;> rfl

theorem name_call (s : Sheet) (c : Call) : (s.call c).name = c.name?.getD s.name := by
  cases c with
  | setCell r c text =>
      rw [call_setCell]
      rfl
  | rename _ | setCellStyle _ _ _ | setColumnStyle _ _ | addValidation _ | protect _ => rfl

theorem protection_call (s : Sheet) (c : Call) :
    (s.call c).protection = c.protection?.or s.protection := by
  cases c with
  | setCell r c text =>
      rw [call_setCell]
      rfl
  | rename _ | setCellStyle _ _ _ | setColumnStyle _ _ | addValidation _ | protect _ => rfl

/-! ## All places -/

/-- A sheet stands as it was but for what some calls wrote.  Every place has what the last call on
    it wrote, and without a call on it what it had before; rules are added behind the others.  The
    grid grows by nothing but empty rows and empty texts. -/
structure Follows (s : Sheet) (calls : List Call) (s' : Sheet) : Prop where
  cell : ∀ row col, row ≠ 0 → col ≠ 0 → s'.cell row col
    = ((last? (Call.text? row col) calls).or
        (stored? s.rows (row.toNat - 1) (col.toNat - 1))).getD ""
  edge : ∀ row col, row = 0 ∨ col = 0 →
    s'.cell row col = "" ∧ ∀ text, s'.setCell row col text = s'
  cellStyle? : ∀ row col, s'.cellStyle? row col
    = (last? (Call.cellStyle? row col) calls).or (s.cellStyle? row col)
  columnStyle? : ∀ col, s'.columnStyle? col
    = (last? (Call.columnStyle? col) calls).or (s.columnStyle? col)
  validations : s'.validations = s.validations ++ calls.filterMap Call.validation?
  name : s'.name = (last? Call.name? calls).getD s.name
  protection : s'.protection = (last? Call.protection? calls).or s.protection
  rows : ∀ i, (∀ c ∈ calls, ¬ c.WritesRow i) → Grown [] s.rows[i]? s'.rows[i]?
  cells : ∀ i j, (∀ c ∈ calls, ¬ c.WritesCell i j) →
    Grown "" (stored? s.rows i j) (stored? s'.rows i j)
  cellStyles : ∀ e : StyledCell, (∀ c ∈ calls, c.cellStyle? e.row e.col = none) →
    ∀ i : Nat, s'.cellStyles[i]? = some e ↔ s.cellStyles[i]? = some e
  columnStyles : ∀ e : StyledColumn, (∀ c ∈ calls, c.columnStyle? e.col = none) →
    ∀ i : Nat, s'.columnStyles[i]? = some e ↔ s.columnStyles[i]? = some e

/-- **A SHEET FOLLOWS THE CALLS ON IT**, whatever it held before and however many there
    are.  Each part of the sheet is read by its own function, and all of these follow
    the calls by one law (`read_after`). -/
theorem after_follows (s : Sheet) (calls : List Call) : Follows s calls (s.after calls) where
  -- each reading follows the calls by one lemma, from what a single call does to it
  cell row col hrow hcol := by
    have hread := read_after (fun s => s.cell row col) (cell_call hrow hcol) s calls
    refine hread.trans ?_
    rw [textAt_of_cell hrow hcol]
    cases last? (Call.text? row col) calls <;> rfl
  edge row col h := ⟨cell_of_zero h, fun text => setCell_of_zero h text⟩
  cellStyle? row col :=
    read?_after (fun s => s.cellStyle? row col) (cellStyle?_call row col) s calls
  columnStyle? col :=
    read?_after (fun s => s.columnStyle? col) (columnStyle?_call col) s calls
  validations := validations_after s calls
  name := read_after Sheet.name name_call s calls
  protection := read?_after Sheet.protection protection_call s calls
  rows i h := after_of_step (R := fun a b => Grown [] a.rows[i]? b.rows[i]?)
    (fun _ => Or.inl rfl) Grown.trans (fun c hc s => grown_row (h c hc) s) s
  cells i j h := after_of_step (R := fun a b => Grown "" (stored? a.rows i j) (stored? b.rows i j))
    (fun _ => Or.inl rfl) Grown.trans (fun c hc s => grown_cell (h c hc) s) s
  cellStyles e h i := after_of_step
    (R := fun a b => b.cellStyles[i]? = some e ↔ a.cellStyles[i]? = some e)
    (fun _ => Iff.rfl) (fun hab hbc => hbc.trans hab) (fun c hc s => cellStyles_call (h c hc) s i) s
  columnStyles e h i := after_of_step
    (R := fun a b => b.columnStyles[i]? = some e ↔ a.columnStyles[i]? = some e)
    (fun _ => Iff.rfl) (fun hab hbc => hbc.trans hab)
    (fun c hc s => columnStyles_call (h c hc) s i) s

example : ((ofRows [["Name"]]).after [.setCell 3 2 "x", .setCell 0 1 "y"]).rows
    = [["Name"], [], ["", "x"]] := by decide

end Gridbase.Sheet
