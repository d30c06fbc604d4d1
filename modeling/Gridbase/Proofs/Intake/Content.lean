import Gridbase.Proofs.Intake.Problems

/-! # What an intake holds

    The value of a cell depends on its text and its column alone: it is what the column reads
    in the text, and else NULL, or the substitute of the type where the column holds no NULL
    (`content`).

    * `run_columns`: a report holds, column by column, the content of the cells.
    * `headers_of_texts`: the headers of a sheet are known from the texts of its first row.
    * `body_ne_nil_iff`, `length_body_eq`: where the data ends is known from the texts below. -/

namespace Gridbase.Intake

open Gridbase.Text

/-! ## Cells -/

/-- The value that a column reads in a text, if it reads one.  A blank text gives none,
    and neither does any text in a column whose type is unknown. -/
def parsed? (info : ColumnInfo) (text : String) : Option Value :=
  if allBlank text then none
  else (DataType.parse? info.dataType).bind fun type => (Cell.read type info text).toOption

/-- What a column holds where it reads no value: NULL if it may be, and else the
    substitute for its type. -/
def absent (info : ColumnInfo) : Value := if info.isNullable then .null else filled info

/-- What a column holds for a text.  It depends on the column and the text alone, and
    not on where they stand in the sheet. -/
def content (info : ColumnInfo) (text : String) : Value :=
  (parsed? info text).getD (absent info)

/-- A text that is blank, or that its column refuses, gives no value. -/
theorem cellValue_fst (row : Nat) (k : Kept) (text : String) :
    (cellValue row k text).1 = (parsed? k.info text).getD .null := by
  rw [parsed?]
  rcases cell_cases k text with hblank | ⟨hblank, htype⟩
    | ⟨t, fault, hblank, htype, hread⟩ | ⟨t, v, hblank, htype, hread⟩
  · rw [cellValue_of_blank hblank, hblank]
    rfl
  · rw [cellValue_of_unknown (by simp [hblank]) htype, hblank, htype]
    rfl
  · rw [cellValue_of_fault (by simp [hblank]) htype hread, hblank, htype, Option.bind_some, hread]
    rfl
  · rw [cellValue_of_read (by simp [hblank]) htype hread, hblank, htype, Option.bind_some, hread]
    rfl

/-- What is read is not NULL. -/
theorem isNull_of_parsed? {info : ColumnInfo} {text : String} {v : Value}
    (h : parsed? info text = some v) : v.isNull = false := by
  rw [parsed?] at h
  split at h
  · exact nomatch h
  · obtain ⟨t, -, hread⟩ := Option.bind_eq_some_iff.mp h
    cases hcell : Cell.read t info text with
    | error fault =>
        rw [hcell] at hread
        exact nomatch hread
    | ok v' =>
        rw [hcell] at hread
        obtain rfl := Option.some.inj hread
        exact isNull_of_fits (Cell.fits_of_read hcell)

/-- **THE VALUE OF A CELL** is the content of its text. -/
theorem readCell_value (row : Nat) (cells : List String) (k : Kept) :
    (readCell row cells k).1 = content k.info (textUnder cells k) := by
  rw [readCell_eq, content, absent, apply_ite Prod.fst, cellValue_fst]
  cases hparsed : parsed? k.info (textUnder cells k) with
  | none =>
      cases k.info.isNullable <;> rfl
  | some v =>
      rw [Option.getD_some, isNull_of_parsed? hparsed]
      rfl

/-- **A REPORT HOLDS THE CONTENT OF THE CELLS**, column by column and row by row.  So a
    report is known from its number of rows and from the texts of the sheet. -/
theorem run_columns {w : Watch} {s : Sheet} {columns : List ColumnInfo} {table : String}
    {r : Report} (h : run w s columns table = .ok r) :
    r.dataset.columns = (keptHeaders columns s).map fun k =>
      ⟨k.info.name, (List.range r.dataset.rowCount).map fun i =>
        content k.info (cellUnder s (i + 2) k)⟩ := by
  obtain ⟨-, -, hdataset, -⟩ := run_eq_ok h
  rw [rowCount_of_run h, hdataset, datasetOf]
  refine List.map_congr_left fun k _ => congrArg (DataColumn.mk k.info.name) ?_
  rw [rowValues_body]
  refine List.map_congr_left fun i _ => ?_
  rw [readCell_value, textUnder_row]

/-! ## Headers -/

/-- The texts of the headers: the first row up to its first blank cell. -/
def headerTexts (s : Sheet) : List String := (s.rows.headD []).takeWhile fun t => !allBlank t

theorem headers_eq (s : Sheet) :
    headers s = ((headerTexts s).zipIdx 1).map fun h => ⟨h.1, h.2⟩ := rfl

theorem map_text_headers (s : Sheet) : (headers s).map Header.text = headerTexts s := by
  rw [headers_eq, List.map_map]
  exact List.zipIdx_map_fst 1 _

theorem length_headers (s : Sheet) : (headers s).length = (headerTexts s).length := by
  rw [← map_text_headers, List.length_map]

theorem textAt_zero (s : Sheet) (j : Nat) :
    Sheet.textAt s.rows 0 j = (s.rows.headD [])[j]?.getD "" := by
  rw [Sheet.textAt]
  cases s.rows <;> rfl

/-- What is taken of a list is known from its items, up to the first that fails. -/
theorem takeWhile_eq {α : Type} {p : α → Bool} (fill : α) (hfill : p fill = false)
    {taken : List α} (htaken : ∀ a ∈ taken, p a = true) :
    ∀ {items : List α}, (∀ (i : Nat) (a : α), taken[i]? = some a → items[i]?.getD fill = a) →
      p (items[taken.length]?.getD fill) = false → items.takeWhile p = taken := by
  -- induction on what is taken, with the list left open
  induction taken with
  | nil =>
      intro items _ hend
      cases items with
      | nil => rfl
      | cons a items => exact List.takeWhile_cons_of_neg (Bool.eq_false_iff.mp hend)
  | cons a taken ih =>
      intro items hitems hend
      obtain ⟨ha, hrest⟩ := List.forall_mem_cons.mp htaken
      cases items with
      | nil =>
          -- a list that ends too early goes on with the filling, which is not taken
          have hnone : fill = a := hitems 0 a rfl
          exact nomatch hfill.symm.trans ((congrArg p hnone).trans ha)
      | cons b items =>
          obtain rfl : b = a := hitems 0 a rfl
          rw [List.takeWhile_cons_of_pos ha,
            ih hrest (fun i c hc => hitems (i + 1) c hc) hend]

/-- **THE HEADERS ARE KNOWN FROM THEIR TEXTS.** -/
theorem headerTexts_of_texts {s : Sheet} {names : List String}
    (hsolid : ∀ name ∈ names, allBlank name = false)
    (htexts : ∀ i name, names[i]? = some name → Sheet.textAt s.rows 0 i = name)
    (hend : allBlank (Sheet.textAt s.rows 0 names.length) = true) : headerTexts s = names := by
  simp only [textAt_zero] at htexts hend
  refine takeWhile_eq "" rfl (fun name hname => ?_) htexts ?_
  · rw [hsolid name hname]
    rfl
  · rw [hend]
    rfl

/-- The texts of the headers stand in the first row, and the next one is blank.  The two
    facts say all that there is to know of them. -/
theorem texts_of_headerTexts (s : Sheet) :
    (∀ i name, (headerTexts s)[i]? = some name →
        Sheet.textAt s.rows 0 i = name ∧ allBlank name = false)
      ∧ allBlank (Sheet.textAt s.rows 0 (headerTexts s).length) = true := by
  have hlead : headerTexts s <+: s.rows.headD [] := List.takeWhile_prefix _
  have hblank : (!allBlank "") = false := rfl
  obtain ⟨hall, hend⟩ := takeWhile_ends (p := fun t => !allBlank t) hblank (s.rows.headD [])
  constructor
  · intro i name hname
    obtain ⟨hi, rfl⟩ := List.getElem?_eq_some_iff.mp hname
    -- the texts taken stand in the first row at their own places
    have hat : (s.rows.headD [])[i]? = some (headerTexts s)[i] := by
      rw [hlead.getElem hi]
      exact List.getElem?_eq_getElem _
    have hsolid := hall i hi
    rw [hat, Option.getD_some, Bool.not_eq_true'] at hsolid
    rw [textAt_zero, hat]
    exact ⟨rfl, hsolid⟩
  · rw [textAt_zero]
    rw [Bool.not_eq_false'] at hend
    exact hend

/-! ## Where the data ends -/

/-- There are rows to read exactly if the first one has data. -/
theorem body_ne_nil_iff {columns : List ColumnInfo} {s : Sheet} :
    body columns s ≠ []
      ↔ ∃ k ∈ keptHeaders columns s, allBlank (cellUnder s 2 k) = false := by
  obtain ⟨hdata, hended⟩ := body_ends columns s
  constructor
  · intro hne
    exact hdata 0 (List.length_pos_iff.mpr hne)
  · rintro ⟨k, hk, hsolid⟩ hnil
    have hblank := hended k hk
    rw [hnil] at hblank
    exact nomatch hsolid.symm.trans hblank

/-- A row counted from zero has data under the kept headers.  What stands elsewhere in
    the row does not count. -/
def rowHasData (columns : List ColumnInfo) (s : Sheet) (i : Nat) : Prop :=
  ∃ k ∈ keptHeaders columns s, allBlank (cellUnder s (i + 2) k) = false

/-- **WHERE THE DATA ENDS** is known from which rows have data.  The first row without
    data ends both of them. -/
theorem length_body_eq {columns : List ColumnInfo} {s s' : Sheet}
    (h : ∀ i, rowHasData columns s i ↔ rowHasData columns s' i) :
    (body columns s).length = (body columns s').length := by
  have hle : ∀ {a b : Sheet}, (∀ i, rowHasData columns a i → rowHasData columns b i) →
      (body columns a).length ≤ (body columns b).length := by
    intro a b hab
    refine Nat.le_of_not_lt fun hlt => ?_
    -- the row that ends the data of `b` has data in `a`
    obtain ⟨k, hk, hsolid⟩ := hab _ ((body_ends columns a).1 _ hlt)
    exact nomatch hsolid.symm.trans ((body_ends columns b).2 k hk)
  exact Nat.le_antisymm (hle fun i => (h i).mp) (hle fun i => (h i).mpr)

/-- **AN INTAKE SUCCEEDS** if the table has a name, some row has data and no check observes that
    cancellation is requested. -/
theorem run_isOk {w : Watch} {s : Sheet} {columns : List ColumnInfo} {table : String}
    (htable : allBlank table = false) (hbody : body columns s ≠ [])
    (hunseen : ∀ i < (body columns s).length, w.beforeRow i = false) :
    ∃ r, run w s columns table = .ok r := by
  obtain ⟨k, hk, -⟩ := body_ne_nil_iff.mp hbody
  have hmatched : k ∈ matched columns (headers s) := (firstUses_sublist _).mem hk
  obtain ⟨hheader, hnamed⟩ := named_of_mem_matched hmatched
  have hcolumns : columns.isEmpty = false := by
    cases columns with
    | nil => exact nomatch hnamed
    | cons c columns => rfl
  have hheaders : (headers s).isEmpty = false :=
    List.isEmpty_eq_false_iff.mpr (List.ne_nil_of_mem hheader)
  have hseen : (List.range (body columns s).length).any w.beforeRow = false := by
    simpa using hunseen
  rw [run_eq, hcolumns, htable, hheaders, List.isEmpty_eq_false_iff.mpr hbody, hseen]
  exact ⟨_, rfl⟩

end Gridbase.Intake
