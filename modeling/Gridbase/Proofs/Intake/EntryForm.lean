import Gridbase.Proofs.Identifier
import Gridbase.Proofs.Intake.Content
import Gridbase.Proofs.Sheet.Writing

/-! # Entry forms that are read back

    A form that was filled in is read with the columns that it was made for.

    Writer and reader meet at the first row of the sheet: it names the columns, one after the
    other, and ends after them (`Heads`).  A form has such a row, and no edit below changes it
    (`heads_of_entryForm`); and of a sheet with such a row every header is kept
    (`keptHeaders_of_heads`). -/

namespace Gridbase.Intake

open Gridbase.Text

/-! ## The reader -/

/-- The first row of a sheet names the columns, one after the other, and ends after
    them.  What stands beyond its end is not read. -/
structure Heads (columns : List ColumnInfo) (s : Sheet) : Prop where
  texts : ∀ (i : Nat) (c : ColumnInfo), columns[i]? = some c → Sheet.textAt s.rows 0 i = c.name
  ended : allBlank (Sheet.textAt s.rows 0 columns.length) = true

/-- Names that a header stands for as they are, each of one column: trimming leaves them
    alone, and no two differ in case only. -/
structure Headable (columns : List ColumnInfo) : Prop where
  solid : ∀ c ∈ columns, Solid c.name.toList
  distinct : columns.Pairwise fun a b => sameName a.name b.name = false

/-- A header for each column, in its place. -/
def ownHeaders (columns : List ColumnInfo) : List Kept :=
  columns.zipIdx.map fun c => ⟨⟨c.1.name, c.2 + 1⟩, c.1, c.2⟩

variable {columns : List ColumnInfo} {s : Sheet}

/-- A solid name is not blank. -/
theorem allBlank_of_solid {name : String} (h : Solid name.toList) : allBlank name = false := by
  obtain ⟨c, rest, hname, hc⟩ := h.head
  rw [allBlank, hname, List.all_cons, hc, Bool.false_and]

/-- A solid name is trimmed. -/
theorem trimmed_of_solid {name : String} (h : Solid name.toList) : trimmed name = name := by
  rw [trimmed, trim_solid h, String.ofList_toList]

/-- The headers are the names of the columns. -/
theorem headers_of_heads (hnames : Headable columns) (h : Heads columns s) :
    headers s = (ownHeaders columns).map Kept.header := by
  -- row 1 has the names, and behind them a blank
  have htexts : headerTexts s = columns.map ColumnInfo.name := by
    refine headerTexts_of_texts ?_ ?_ ?_
    · intro name hname
      obtain ⟨c, hc, rfl⟩ := List.mem_map.mp hname
      exact allBlank_of_solid (hnames.solid c hc)
    · intro i name hname
      rw [List.getElem?_map, Option.map_eq_some_iff] at hname
      obtain ⟨c, hc, rfl⟩ := hname
      exact h.texts i c hc
    · rw [List.length_map]
      exact h.ended
  refine List.ext_getElem? fun i => ?_
  rw [headers_eq, htexts, ownHeaders]
  simp only [List.getElem?_map, List.getElem?_zipIdx]
  cases columns[i]? with
  | none => rfl
  | some c =>
      show some (Header.mk c.name (1 + i)) = some (Header.mk c.name (0 + i + 1))
      rw [Nat.add_comm 1 i, Nat.zero_add]

theorem info_mem_of_ownHeaders {k : Kept} (hk : k ∈ ownHeaders columns) : k.info ∈ columns := by
  obtain ⟨c, hc, rfl⟩ := List.mem_map.mp hk
  exact List.fst_mem_of_mem_zipIdx hc

/-- **A NAME FINDS ITS OWN COLUMN.** -/
theorem named?_of_mem (hnames : Headable columns) {k : Kept} (hk : k ∈ ownHeaders columns) :
    named? columns k.header = some (k.info, k.place) := by
  obtain ⟨⟨c, i⟩, hc, rfl⟩ := List.mem_map.mp hk
  have hmem : c ∈ columns := List.fst_mem_of_mem_zipIdx hc
  have hdistinct : columns.zipIdx.Pairwise fun a b => sameName a.1.name b.1.name = false := by
    have hcolumns := hnames.distinct
    rw [← List.zipIdx_map_fst 0 columns, List.pairwise_map] at hcolumns
    exact hcolumns
  rw [named?, trimmed_of_solid (hnames.solid c hmem)]
  exact find?_of_distinct hdistinct hc (sameName_refl c.name)

theorem matched_ownHeaders (hnames : Headable columns) :
    matched columns ((ownHeaders columns).map Kept.header) = ownHeaders columns := by
  rw [matched, List.filterMap_map]
  refine (List.filterMap_congr fun k hk => ?_).trans List.filterMap_some
  rw [Function.comp_apply, named?_of_mem hnames hk]
  rfl

theorem pairwise_place_ownHeaders (columns : List ColumnInfo) :
    (ownHeaders columns).Pairwise fun a b => a.place ≠ b.place := by
  rw [ownHeaders, List.pairwise_map, List.pairwise_iff_getElem]
  intro i j hi hj hij
  rw [List.getElem_zipIdx, List.getElem_zipIdx]
  show 0 + i ≠ 0 + j
  omega

/-- **EVERY HEADER IS KEPT**, for its own column. -/
theorem keptHeaders_of_heads (hnames : Headable columns) (h : Heads columns s) :
    keptHeaders columns s = ownHeaders columns := by
  rw [keptHeaders, headers_of_heads hnames h, matched_ownHeaders hnames,
    firstUses_of_pairwise (pairwise_place_ownHeaders columns)]

/-- **THERE IS NO PROBLEM WITH THE HEADERS.**  No header is unknown or repeated, and no
    column is missing. -/
theorem headerLog_of_heads (hnames : Headable columns) (h : Heads columns s) :
    headerLog columns s = [] := by
  have hplace : ∀ k ∈ ownHeaders columns, place? columns k.header = some k.place := by
    intro k hk
    rw [place?, named?_of_mem hnames hk]
    rfl
  have hknown : ∀ header ∈ headers s, ∃ place, place? columns header = some place := by
    intro header hheader
    rw [headers_of_heads hnames h] at hheader
    obtain ⟨k, hk, rfl⟩ := List.mem_map.mp hheader
    exact ⟨k.place, hplace k hk⟩
  -- each header chooses the column at its own place, and these differ
  have hdifferent : (headers s).Pairwise fun a b => place? columns a ≠ place? columns b := by
    rw [headers_of_heads hnames h, List.pairwise_map]
    refine (pairwise_place_ownHeaders columns).imp_of_mem fun {a b} ha hb hne => ?_
    rw [hplace a ha, hplace b hb]
    exact fun heq => hne (Option.some.inj heq)
  -- every column has a header, whether it needs one or not
  have hcomplete : ∀ c ∈ columns, isRequired c = true →
      ∃ k ∈ keptHeaders columns s, sameName k.info.name c.name = true := by
    intro c hc _
    obtain ⟨i, hi⟩ := List.getElem?_of_mem hc
    rw [keptHeaders_of_heads hnames h]
    refine ⟨⟨⟨c.name, i + 1⟩, c, i⟩, List.mem_map.mpr ⟨(c, i), ?_, rfl⟩, sameName_refl c.name⟩
    exact List.mem_zipIdx_iff_getElem?.mpr hi
  rw [headerLog, List.append_eq_nil_iff, List.append_eq_nil_iff, List.map_eq_nil_iff,
    listed_eq_nil_iff, List.map_eq_nil_iff, listed_eq_nil_iff]
  exact ⟨⟨(repeatedHeaders_eq_nil_iff hknown).mpr hdifferent,
    unknownHeaders_eq_nil_iff.mpr hknown⟩, missingColumns_eq_nil_iff.mpr hcomplete⟩

/-- A problem with a cell whose type is known: its text is refused, or a value is
    missing.  Any other problem is one with the headers, with a type, or with the
    lengths of columns. -/
def OfCell (p : Problem) : Prop :=
  (∃ place fault, p = .rejectedCell place fault) ∨ ∃ header row, p = .missingValue header row

theorem ofCell_of_mem_cellLog {row : Nat} {k : Kept} {text : String} {t : DataType}
    (htype : DataType.parse? k.info.dataType = some t) {p : Problem}
    (h : p ∈ cellLog row k text) : OfCell p := by
  rcases List.mem_append.mp h with hrejected | hmissing
  · left
    have hsome := Option.mem_toList.mp hrejected
    rw [rejection?, type_of_parse? htype] at hsome
    split at hsome
    · cases hsome
    · dsimp only at hsome
      split at hsome
      · cases hsome
      · exact ⟨_, _, (Option.some.inj hsome).symm⟩
  · right
    split at hmissing
    · exact ⟨_, _, List.mem_singleton.mp hmissing⟩
    · cases hmissing

/-! ## The writer -/

/-- **A FORM NAMES ITS COLUMNS**, and so does the form after edits below its first row.
    The number of columns is bounded because columns are numbered with 32 bits. -/
theorem heads_of_entryForm {form : Sheet} (hform : Sheet.entryForm columns {} = .ok form)
    (hfew : columns.length < 2 ^ 32) {edits : List Sheet.CellEdit}
    (hbelow : ∀ e ∈ edits, 2 ≤ e.row.toNat) : Heads columns (form.filledIn edits) := by
  obtain ⟨-, formed, rfl, hformed⟩ := Sheet.entryForm_eq_ok hform
  have hlength := hformed.length_eq
  have hfit : formed.length < 2 ^ 32 := hlength ▸ hfew
  constructor
  · intro i c hc
    obtain ⟨hi, rfl⟩ := List.getElem?_eq_some_iff.mp hc
    have hi' : i < formed.length := hlength ▸ hi
    obtain ⟨hname, -⟩ := (List.forall₂_iff_get.mp hformed).2 i hi hi'
    rw [Sheet.textAt_filledIn hbelow,
      Sheet.textAt_decorated hfit {} (List.getElem?_eq_getElem hi')]
    exact hname
  · rw [Sheet.textAt_filledIn hbelow,
      Sheet.textAt_decorated_outside hfit {} (Nat.le_of_eq hlength.symm)]
    rfl

/-- Valid names of which no two are the same can be headers. -/
theorem headable_of_isValid {extra : List String}
    (hvalid : ∀ c ∈ columns, Identifier.isValid extra c.name = true)
    (hdistinct : columns.Pairwise fun a b => sameName a.name b.name = false) :
    Headable columns where
  solid c hc := Identifier.solid_of_isValid (hvalid c hc)
  distinct := hdistinct

/-! ## Both together -/

/-- What is read of a sheet with a header for each column: every column of the metadata in order,
    and in each the content of the cells of its own column of the sheet, row by row; and no
    problem but with single cells. -/
structure ReadsColumns (columns : List ColumnInfo) (s : Sheet) (r : Report) : Prop where
  names : r.dataset.names = columns.map ColumnInfo.name
  contents : r.dataset.columns = columns.zipIdx.map fun c =>
    ⟨c.1.name, (List.range r.dataset.rowCount).map fun i =>
      content c.1 (Sheet.textAt s.rows (i + 1) c.2)⟩
  problems : ∀ p ∈ r.problems, OfCell p

/-- A sheet with a header for each column is read column by column. -/
theorem readsColumns_of_heads (hnames : Headable columns) (h : Heads columns s)
    (htypes : ∀ c ∈ columns, ∃ t, DataType.parse? c.dataType = some t) {w : Watch}
    {table : String} {r : Report} (hrun : run w s columns table = .ok r) :
    ReadsColumns columns s r := by
  have hcolumns := run_columns hrun
  rw [keptHeaders_of_heads hnames h, ownHeaders, List.map_map] at hcolumns
  refine ⟨?_, hcolumns, ?_⟩
  · rw [Dataset.names, hcolumns, List.map_map]
    show columns.zipIdx.map (ColumnInfo.name ∘ Prod.fst) = _
    rw [← List.map_map, List.zipIdx_map_fst]
  · intro p hp
    rw [run_problems_eq hrun, problemLog, headerLog_of_heads hnames h, List.nil_append] at hp
    obtain ⟨i, -, hp⟩ := List.mem_flatMap.mp hp
    obtain ⟨k, hk, hp⟩ := List.mem_flatMap.mp hp
    rw [keptHeaders_of_heads hnames h] at hk
    obtain ⟨t, ht⟩ := htypes k.info (info_mem_of_ownHeaders hk)
    exact ofCell_of_mem_cellLog ht hp

/-- A text below the header of its column is data. -/
theorem body_ne_nil_of_heads (hnames : Headable columns) (h : Heads columns s) {j : Nat}
    (hj : j < columns.length) (hdata : allBlank (Sheet.textAt s.rows 1 j) = false) :
    body columns s ≠ [] := by
  refine body_ne_nil_iff.mpr ⟨⟨⟨columns[j].name, j + 1⟩, columns[j], j⟩, ?_, hdata⟩
  rw [keptHeaders_of_heads hnames h]
  refine List.mem_map.mpr ⟨(columns[j], j), ?_, rfl⟩
  exact List.mem_zipIdx_iff_getElem?.mpr (List.getElem?_eq_getElem hj)

/-- **A FORM IS READ AS IT WAS MADE.**  The form of some metadata, whose names are valid and
    differ in more than case, is filled in below its headers, with data in the second row under
    one of them.  For a table with a name, and if cancellation is not observed, it is read: every
    column of the metadata is there, with the content of its own column of the sheet, and the
    only problems are with single cells. -/
theorem run_entryForm_filledIn (extra : List String) (columns : List ColumnInfo) (form : Sheet)
    (hform : Sheet.entryForm columns {} = .ok form)
    (hvalid : ∀ c ∈ columns, Identifier.isValid extra c.name = true)
    (hdistinct : columns.Pairwise fun a b => sameName a.name b.name = false)
    (hfew : columns.length < 2 ^ 32) (edits : List Sheet.CellEdit)
    (hbelow : ∀ e ∈ edits, 2 ≤ e.row.toNat)
    (hdata : ∃ j < columns.length,
      allBlank (Sheet.textAt (form.filledIn edits).rows 1 j) = false)
    (table : String) (htable : allBlank table = false) (w : Watch)
    (hunseen : ∀ i, w.beforeRow i = false) :
    ∃ r, run w (form.filledIn edits) columns table = .ok r
      ∧ ReadsColumns columns (form.filledIn edits) r := by
  have hnames := headable_of_isValid hvalid hdistinct
  -- edits below row 1 leave the headers of the form as they are
  have hheads := heads_of_entryForm hform hfew hbelow
  obtain ⟨j, hj, htext⟩ := hdata
  obtain ⟨r, hrun⟩ :=
    run_isOk htable (body_ne_nil_of_heads hnames hheads hj htext) fun i _ => hunseen i
  refine ⟨r, hrun, readsColumns_of_heads hnames hheads ?_ hrun⟩
  -- the form exists, so that every type is one that cells can have
  obtain ⟨-, formed, -, hformed⟩ := Sheet.entryForm_eq_ok hform
  intro c hc
  obtain ⟨i, hi, rfl⟩ := List.getElem_of_mem hc
  exact ((List.forall₂_iff_get.mp hformed).2 i hi (hformed.length_eq ▸ hi)).2

/-- The columns of the staff. -/
def staffColumns : List ColumnInfo := [
  { name := "Id", dataType := "Integer", isAutoIncrementing := true, isPrimaryKey := true },
  { name := "Name", dataType := "String", length := some 10 },
  { name := "Born", dataType := "DateTime", isNullable := true }]

/-- The form for the staff. -/
def staffForm : Sheet :=
  Sheet.decorated [⟨"Id", .integer, none⟩, ⟨"Name", .string, some 10⟩, ⟨"Born", .dateTime, none⟩] {}

/-- Entries in two rows, not in their order, and one beyond the form.  The last one has
    no column, so it is written nowhere. -/
def staffEdits : List Sheet.CellEdit :=
  [⟨3, 2, "Alan"⟩, ⟨2, 3, "1815-12-10"⟩, ⟨2, 2, "Ada"⟩, ⟨3, 7, "x"⟩, ⟨2, 0, "y"⟩]

/-- The form of the staff is read with its three columns and two rows. -/
theorem run_entryForm_filledIn_staff :
    ∃ r, run .never (staffForm.filledIn staffEdits) staffColumns "Staff" = .ok r
      ∧ ReadsColumns staffColumns (staffForm.filledIn staffEdits) r :=
  run_entryForm_filledIn [] staffColumns staffForm (by decide +kernel) (by decide +kernel)
    (by decide +kernel) (by decide) staffEdits (by decide +kernel) ⟨1, by decide, by decide +kernel⟩
    "Staff" (by decide +kernel) .never fun _ => rfl

/-! ## What else it takes -/

/-- Every form of the metadata that was filled in is read with all its columns, if its
    names are valid and differ and the first row of data is not blank. -/
def FormsRead (w : Watch) (table : String) (columns : List ColumnInfo) : Prop :=
  ∀ (form : Sheet) (edits : List Sheet.CellEdit), Sheet.entryForm columns {} = .ok form →
    (∀ c ∈ columns, Identifier.isValid [] c.name = true) →
    (columns.Pairwise fun a b => sameName a.name b.name = false) →
    (∀ e ∈ edits, 2 ≤ e.row.toNat) →
    (∃ j < columns.length, allBlank (Sheet.textAt (form.filledIn edits).rows 1 j) = false) →
    ∃ r, run w (form.filledIn edits) columns table = .ok r
      ∧ r.dataset.names = columns.map ColumnInfo.name

/-- The lowest 32 bits of a number as digits, so that different numbers below `2 ^ 32`
    give different texts. -/
def bits (n : Nat) : List Char := (List.range 32).map fun i => if n.testBit i then '1' else '0'

theorem eq_of_bits_eq {m n : Nat} (hm : m < 2 ^ 32) (hn : n < 2 ^ 32) (h : bits m = bits n) :
    m = n := by
  refine Nat.eq_of_testBit_eq fun i => ?_
  by_cases hi : i < 32
  · have hat := List.map_inj_left.mp h i (List.mem_range.mpr hi)
    cases hbm : m.testBit i <;> cases hbn : n.testBit i <;> simp [hbm, hbn] at hat ⊢
  · have hhigh : ∀ {k : Nat}, k < 2 ^ 32 → k.testBit i = false := fun hk =>
      Nat.testBit_lt_two_pow (Nat.lt_of_lt_of_le hk (Nat.pow_le_pow_right (by decide) (by omega)))
    rw [hhigh hm, hhigh hn]

theorem mem_bits {n : Nat} {c : Char} (h : c ∈ bits n) : c = '0' ∨ c = '1' := by
  obtain ⟨i, -, rfl⟩ := List.mem_map.mp h
  cases n.testBit i
  · exact Or.inl rfl
  · exact Or.inr rfl

/-- A name for a number.  It begins with a letter, as a name has to. -/
def bitName (n : Nat) : String := String.ofList ('c' :: bits n)

theorem lower_bitName (n : Nat) : lower (bitName n).toList = 'c' :: bits n := by
  have hsame : ∀ c ∈ bits n, c.toLower = id c := by
    intro c hc
    rcases mem_bits hc with rfl | rfl <;> rfl
  rw [bitName, String.toList_ofList]
  show 'c' :: (bits n).map Char.toLower = _
  rw [List.map_congr_left hsame, List.map_id]

/-- The name of a number is valid: it is too long for a keyword. -/
theorem isValid_bitName (n : Nat) : Identifier.isValid [] (bitName n) = true := by
  have hbody : (bits n).all Identifier.isBody = true := by
    refine List.all_eq_true.mpr fun c hc => ?_
    rcases mem_bits hc with rfl | rfl <;> decide
  have hlength : (bits n).length = 32 := by rw [bits, List.length_map, List.length_range]
  have hshape : Identifier.hasShape (bitName n) = true := by
    rw [Identifier.hasShape, bitName, String.toList_ofList]
    dsimp only
    rw [hbody, hlength]
    decide
  have hfree : Identifier.isReserved [] (bitName n) = false := by
    -- no reserved word has a digit in the second place
    have hwords : ∀ word ∈ Identifier.reservedWords,
        (lower word.toList)[1]? ≠ some '0' ∧ (lower word.toList)[1]? ≠ some '1' := by decide +kernel
    rw [Identifier.isReserved, List.append_nil, List.any_eq_false]
    intro word hword hsame
    have hlower := sameName_iff.mp hsame
    rw [lower_bitName] at hlower
    obtain ⟨hzero, hone⟩ := hwords word hword
    rw [hlower, List.getElem?_cons_succ] at hzero hone
    obtain ⟨c, hc⟩ : ∃ c, (bits n)[0]? = some c :=
      ⟨_, List.getElem?_eq_getElem (by rw [hlength]; decide)⟩
    rcases mem_bits (List.mem_of_getElem? hc) with rfl | rfl
    · exact hzero hc
    · exact hone hc
  rw [Identifier.isValid, hshape, hfree]
  rfl

/-- As many columns of texts.  Enough of them wrap the number of a column around. -/
def bitColumns (n : Nat) : List ColumnInfo :=
  (List.range n).map fun i => { name := bitName i, dataType := "String", isNullable := true }

theorem bitColumns_valid (n : Nat) : ∀ c ∈ bitColumns n, Identifier.isValid [] c.name = true := by
  intro c hc
  obtain ⟨i, -, rfl⟩ := List.mem_map.mp hc
  exact isValid_bitName i

theorem bitColumns_distinct {n : Nat} (hn : n ≤ 2 ^ 32) :
    (bitColumns n).Pairwise fun a b => sameName a.name b.name = false := by
  rw [bitColumns, List.pairwise_map]
  refine List.pairwise_lt_range.imp_of_mem fun {a b} ha hb hlt => ?_
  rw [Bool.eq_false_iff]
  intro hsame
  have hlower := sameName_iff.mp hsame
  rw [lower_bitName, lower_bitName] at hlower
  have heq := eq_of_bits_eq (Nat.lt_of_lt_of_le (List.mem_range.mp ha) hn)
    (Nat.lt_of_lt_of_le (List.mem_range.mp hb) hn) (List.cons.inj hlower).2
  exact Nat.ne_of_lt hlt heq

theorem bitColumns_entryForm {n : Nat} (hn : n ≠ 0) :
    ∃ form, Sheet.entryForm (bitColumns n) {} = .ok form := by
  have htype : DataType.parse? "String" = some .string := by decide +kernel
  obtain ⟨formed, hformed⟩ := Sheet.formColumnsFrom_isOk (bitColumns n) 0 fun c hc => by
    have hblank := Identifier.allBlank_of_isValid (bitColumns_valid n c hc)
    obtain ⟨i, -, rfl⟩ := List.mem_map.mp hc
    exact ⟨hblank, .string, htype⟩
  have hne : (bitColumns n).isEmpty = false := by
    rw [List.isEmpty_eq_false_iff, ← List.length_pos_iff, bitColumns, List.length_map,
      List.length_range]
    exact Nat.pos_of_ne_zero hn
  rw [Sheet.entryForm, Sheet.formColumns, hne, if_neg Bool.false_ne_true, hformed]
  exact ⟨_, rfl⟩

/-- A form has fewer than `2 ^ 32` headers, whatever it was made for. -/
theorem length_headers_entryForm {form : Sheet}
    (hform : Sheet.entryForm columns {} = .ok form) {edits : List Sheet.CellEdit}
    (hbelow : ∀ e ∈ edits, 2 ≤ e.row.toNat) : (headers (form.filledIn edits)).length < 2 ^ 32 := by
  obtain ⟨-, formed, rfl, -⟩ := Sheet.entryForm_eq_ok hform
  rw [length_headers]
  refine Nat.lt_of_not_le fun hle => ?_
  -- the header in the last place would be solid, but nothing was written there
  have hlast : 2 ^ 32 - 1 < (headerTexts ((Sheet.decorated formed {}).filledIn edits)).length :=
    Nat.lt_of_lt_of_le (Nat.sub_lt (Nat.two_pow_pos 32) Nat.one_pos) hle
  obtain ⟨htext, hsolid⟩ := (texts_of_headerTexts _).1 _ _ (List.getElem?_eq_getElem hlast)
  rw [← htext, Sheet.textAt_filledIn hbelow, Sheet.rows_decorated,
    Sheet.textAt_writeHeaders_beyond formed (by omega)] at hsolid
  exact nomatch hsolid

theorem length_columns_le {w : Watch} {table : String} {r : Report}
    (h : run w s columns table = .ok r) : r.dataset.columns.length ≤ (headers s).length := by
  rw [run_columns h, List.length_map, keptHeaders]
  exact Nat.le_trans (firstUses_sublist _).length_le (List.length_filterMap_le ..)

/-- **NOT EVERY FORM IS READ WITH ALL ITS COLUMNS**: not for a table without a name, not if a
    check observes that cancellation is requested, and not with more columns than can be
    counted with 32 bits. -/
theorem forms_not_always_read :
    (¬ ∀ table, FormsRead .never table staffColumns)
      ∧ (¬ ∀ w, FormsRead w "Staff" staffColumns)
      ∧ ¬ ∀ columns, FormsRead .never "Staff" columns := by
  have hform : Sheet.entryForm staffColumns {} = .ok staffForm := by decide +kernel
  refine ⟨fun hforms => ?_, fun hforms => ?_, fun hforms => ?_⟩
  · -- a blank name of the table
    obtain ⟨r, hrun, -⟩ := hforms "" staffForm staffEdits hform (by decide +kernel)
      (by decide +kernel) (by decide +kernel) ⟨1, by decide, by decide +kernel⟩
    rw [run_eq] at hrun
    exact nomatch hrun
  · -- a request to cancel
    obtain ⟨r, hrun, -⟩ := hforms .always staffForm staffEdits hform (by decide +kernel)
      (by decide +kernel) (by decide +kernel) ⟨1, by decide, by decide +kernel⟩
    have hcancelled : run .always (staffForm.filledIn staffEdits) staffColumns "Staff"
        = .error .cancelled := by decide +kernel
    exact nomatch hcancelled.symm.trans hrun
  · -- as many columns as numbers, so that the last one has number zero and no header
    obtain ⟨form, hform⟩ := bitColumns_entryForm (n := 2 ^ 32) (by decide)
    have hbelow : ∀ e ∈ ([⟨2, 1, "x"⟩] : List Sheet.CellEdit), 2 ≤ e.row.toNat := by decide
    have hlength : (bitColumns (2 ^ 32)).length = 2 ^ 32 := by
      rw [bitColumns, List.length_map, List.length_range]
    have hdata : allBlank (Sheet.textAt (form.filledIn [⟨2, 1, "x"⟩]).rows 1 0) = false := by
      show allBlank (Sheet.textAt (form.setCell 2 1 "x").rows 1 0) = false
      rw [Sheet.textAt_setCell (by decide) (by decide), if_pos (by decide)]
      decide
    obtain ⟨r, hrun, hnames⟩ := hforms (bitColumns (2 ^ 32)) form _ hform (bitColumns_valid _)
      (bitColumns_distinct (Nat.le_refl _)) hbelow ⟨0, by rw [hlength]; decide, hdata⟩
    have hcount := congrArg List.length hnames
    rw [Dataset.names, List.length_map, List.length_map, hlength] at hcount
    have hle := length_columns_le hrun
    have hlt := length_headers_entryForm hform hbelow
    omega

end Gridbase.Intake
