import Gridbase.Proofs.Gateway.BulkInsert
import Gridbase.Proofs.Intake.EntryForm

/-! # A generated column that is left blank

    A generated column can be left out of a sheet: it is not missed, and its values are made
    when the rows are inserted.  An entry form has a header for it all the same, so that it is
    left blank there.

    * `headers_append`, `length_body_append`: the sheet with the blank column has one header
      more, and as many rows.
    * `insertDataset_skips`: a generated column of a dataset changes nothing of what is inserted.
    * `run_blank_generated`: the rows that are written are the same, but every one of them is
      reported for the value that is missing in the column. -/

namespace Gridbase

open Gridbase.Text Gridbase.Session

namespace Intake

/-! ## The sheet -/

/-- The header is appended to those of the sheet, over cells that are blank; under the other
    headers the texts are the same. -/
structure AppendsBlank (name : String) (s s' : Sheet) : Prop where
  header : Sheet.textAt s'.rows 0 (headers s).length = name
  ended : allBlank (Sheet.textAt s'.rows 0 ((headers s).length + 1)) = true
  blank : ∀ i, allBlank (Sheet.textAt s'.rows (i + 1) (headers s).length) = true
  same : ∀ i, ∀ j < (headers s).length, Sheet.textAt s'.rows i j = Sheet.textAt s.rows i j

variable {columns : List ColumnInfo} {name : String} {s s' : Sheet}

/-- **ONE HEADER MORE.**  The cell that ended the first row is the one where the new
    header stands. -/
theorem headers_append (hsolid : Solid name.toList) (h : AppendsBlank name s s') :
    headers s' = headers s ++ [⟨name, (headers s).length + 1⟩] := by
  have hlength := length_headers s
  obtain ⟨hbefore, -⟩ := texts_of_headerTexts s
  have htexts : headerTexts s' = headerTexts s ++ [name] := by
    refine headerTexts_of_texts ?_ ?_ ?_
    · intro text htext
      rcases List.mem_append.mp htext with hold | hnew
      · obtain ⟨i, hi⟩ := List.getElem?_of_mem hold
        exact (hbefore i text hi).2
      · rw [List.mem_singleton.mp hnew]
        exact allBlank_of_solid hsolid
    · intro i text htext
      -- an old header, or the new one behind them
      rcases Nat.lt_or_ge i (headerTexts s).length with hi | hi
      · rw [List.getElem?_append_left hi] at htext
        rw [h.same 0 i (hlength ▸ hi)]
        exact (hbefore i text htext).1
      · rw [List.getElem?_append_right hi] at htext
        rw [List.getElem?_singleton] at htext
        split at htext
        · next hzero =>
            have hlast : i = (headers s).length := by omega
            rw [hlast, h.header, Option.some.inj htext]
        · exact nomatch htext
    · rw [List.length_append, List.length_singleton, ← hlength]
      exact h.ended
  rw [headers_eq, htexts, List.zipIdx_append, List.map_append, ← headers_eq, ← hlength,
    Nat.add_comm 1]
  rfl

/-- A header stands at a position from 1 to the number of headers. -/
theorem position_of_mem_headers {h : Header} (hh : h ∈ headers s) :
    1 ≤ h.position ∧ h.position ≤ (headers s).length := by
  rw [headers_eq] at hh ⊢
  obtain ⟨⟨text, i⟩, hmem, rfl⟩ := List.mem_map.mp hh
  obtain ⟨hle, hlt, -⟩ := List.mem_zipIdx hmem
  rw [List.length_map, List.length_zipIdx]
  refine ⟨hle, Nat.le_of_lt_succ ?_⟩
  show i < _
  omega

/-- The header of a kept header is one of the sheet. -/
theorem header_mem_of_kept {k : Kept} (hk : k ∈ keptHeaders columns s) : k.header ∈ headers s :=
  (named_of_mem_matched ((firstUses_sublist _).mem hk)).1

/-- Under the headers that the sheet had, the cells are the same. -/
theorem cellUnder_append (h : AppendsBlank name s s') {k : Kept}
    (hk : k ∈ keptHeaders columns s) (row : Nat) : cellUnder s' row k = cellUnder s row k := by
  obtain ⟨hone, hle⟩ := position_of_mem_headers (header_mem_of_kept hk)
  exact h.same (row - 1) (k.header.position - 1) (by omega)

/-! ## The intake -/

/-- A column whose name is a header for it and for no other column.  Other columns may
    still share a name with each other. -/
structure OwnsName (columns : List ColumnInfo) (c : ColumnInfo) : Prop where
  mem : c ∈ columns
  solid : Solid c.name.toList
  own : ∀ b ∈ columns, sameName b.name c.name = true → b = c

/-- The kept header for a column at a place whose name was appended: it stands right
    after all others. -/
def appended (s : Sheet) (c : ColumnInfo) (place : Nat) : Kept :=
  ⟨⟨c.name, (headers s).length + 1⟩, c, place⟩

variable {c : ColumnInfo}

/-- **THE NAME FINDS ITS COLUMN.** -/
theorem OwnsName.named? (hc : OwnsName columns c) :
    ∃ place, ∀ position, named? columns ⟨c.name, position⟩ = some (c, place) := by
  obtain ⟨i, hi⟩ := List.getElem?_of_mem hc.mem
  have hmem : (c, i) ∈ columns.zipIdx := List.mem_zipIdx_iff_getElem?.mpr hi
  have hfound : (columns.zipIdx.find? fun b => sameName b.1.name c.name).isSome = true :=
    List.find?_isSome.mpr ⟨(c, i), hmem, sameName_refl c.name⟩
  obtain ⟨⟨b, place⟩, hfind⟩ := Option.isSome_iff_exists.mp hfound
  have hsame : sameName b.name c.name = true := by
    have hfound := List.find?_some hfind
    exact hfound
  obtain rfl : b = c :=
    hc.own b (List.fst_mem_of_mem_zipIdx (List.mem_of_find?_eq_some hfind)) hsame
  refine ⟨place, fun position => ?_⟩
  rw [Intake.named?, trimmed_of_solid hc.solid]
  exact hfind

/-- Where no header names a column, its place is not used. -/
theorem not_uses_of_without {place position : Nat}
    (hnamed : named? columns ⟨c.name, position⟩ = some (c, place))
    (hwithout : ∀ h ∈ headers s, sameName c.name (trimmed h.text) = false) :
    ¬ (select columns (headers s)).uses place = true := by
  intro huses
  obtain ⟨k, hk, hplace⟩ := List.any_eq_true.mp huses
  rw [select_kept] at hk
  obtain ⟨hheader, hchosen⟩ := named_of_mem_matched ((firstUses_sublist _).mem hk)
  have hfirst := firstNamed_of_named hchosen
  -- the column at the place is `c`, so the header of `k` would name it
  have hsame : some k.info = some c := by
    rw [← hfirst.at_place, beq_iff_eq.mp hplace, (firstNamed_of_named hnamed).at_place]
  have hnames := hfirst.named
  rw [Option.some.inj hsame, hwithout k.header hheader] at hnames
  exact nomatch hnames

/-- **THE APPENDED HEADER IS KEPT** after the others, and nothing is noted of it. -/
theorem select_append (hc : OwnsName columns c)
    (hwithout : ∀ h ∈ headers s, sameName c.name (trimmed h.text) = false)
    (h : AppendsBlank c.name s s') :
    ∃ place, select columns (headers s')
      = { select columns (headers s) with
          kept := (select columns (headers s)).kept ++ [appended s c place] } := by
  obtain ⟨place, hnamed⟩ := hc.named?
  refine ⟨place, ?_⟩
  rw [headers_append hc.solid h, select, List.foldl_append]
  exact Selection.add_new (hnamed _) (not_uses_of_without (hnamed 0) hwithout)

theorem keptHeaders_append (hc : OwnsName columns c)
    (hwithout : ∀ h ∈ headers s, sameName c.name (trimmed h.text) = false)
    (h : AppendsBlank c.name s s') :
    ∃ place, keptHeaders columns s' = keptHeaders columns s ++ [appended s c place] := by
  obtain ⟨place, hselect⟩ := select_append hc hwithout h
  have hkept := congrArg Selection.kept hselect
  rw [select_kept, select_kept] at hkept
  exact ⟨place, hkept⟩

/-- **NO PROBLEM WITH THE HEADERS** comes or goes: a generated column was not missed. -/
theorem headerProblems_append (hc : OwnsName columns c) (hauto : c.isAutoIncrementing = true)
    (hwithout : ∀ h ∈ headers s, sameName c.name (trimmed h.text) = false)
    (h : AppendsBlank c.name s s') :
    headerProblems columns (select columns (headers s'))
      = headerProblems columns (select columns (headers s)) := by
  obtain ⟨place, hselect⟩ := select_append hc hwithout h
  have hmissing : missing columns (select columns (headers s'))
      = missing columns (select columns (headers s)) := by
    rw [missing, missing]
    refine congrArg (List.map ColumnInfo.name) (List.filter_congr fun b hb => ?_)
    rw [hselect, Selection.has, List.any_append, ← Selection.has]
    -- only the column itself has the name, and it is generated
    cases hsame : sameName c.name b.name with
    | false => simp [appended, hsame]
    | true =>
        rw [sameName_comm] at hsame
        rw [hc.own b hb hsame, hauto]
        simp
  rw [headerProblems, headerProblems, hmissing, hselect]

/-- A cell under the appended header is blank. -/
theorem allBlank_cellUnder_appended (h : AppendsBlank c.name s s') (place i : Nat) :
    allBlank (cellUnder s' (i + 2) (appended s c place)) = true := h.blank i

/-- **AS MANY ROWS** are read.  The new cells are blank, so they keep no row among the
    data. -/
theorem length_body_append (hc : OwnsName columns c)
    (hwithout : ∀ h ∈ headers s, sameName c.name (trimmed h.text) = false)
    (h : AppendsBlank c.name s s') :
    (body columns s').length = (body columns s).length := by
  obtain ⟨place, hkept⟩ := keptHeaders_append hc hwithout h
  refine length_body_eq fun i => ?_
  rw [rowHasData, rowHasData, hkept]
  constructor
  · rintro ⟨k, hk, hsolid⟩
    rcases List.mem_append.mp hk with hold | hnew
    · exact ⟨k, hold, by rwa [cellUnder_append h hold] at hsolid⟩
    · rw [List.mem_singleton.mp hnew, allBlank_cellUnder_appended h] at hsolid
      exact nomatch hsolid
  · rintro ⟨k, hk, hsolid⟩
    exact ⟨k, List.mem_append_left _ hk, by rwa [cellUnder_append h hk]⟩

/-- The problems with the cells of a row that is counted from zero, header by header. -/
def rowLog (columns : List ColumnInfo) (s : Sheet) (i : Nat) : List Problem :=
  (keptHeaders columns s).flatMap fun k => cellLog (i + 2) k (cellUnder s (i + 2) k)

/-- A blank where a value is needed is reported as a missing value. -/
theorem cellLog_of_blank {k : Kept} {text : String} (hblank : allBlank text = true)
    (hneeded : k.info.isNullable = false) (row : Nat) :
    cellLog row k text = [.missingValue k.header.text row] := by
  rw [cellLog, rejection?_of_blank hblank, hblank, hneeded]
  rfl

/-- **ONE PROBLEM MORE IN EVERY ROW**: the value that is missing in the column.  It is
    the last one of its row, as the header is the last one. -/
theorem rowLog_append (hc : OwnsName columns c) (hneeded : c.isNullable = false)
    (hwithout : ∀ h ∈ headers s, sameName c.name (trimmed h.text) = false)
    (h : AppendsBlank c.name s s') (i : Nat) :
    rowLog columns s' i = rowLog columns s i ++ [.missingValue c.name (i + 2)] := by
  obtain ⟨place, hkept⟩ := keptHeaders_append hc hwithout h
  rw [rowLog, hkept, List.flatMap_append, List.flatMap_singleton,
    cellLog_of_blank (allBlank_cellUnder_appended h place i) hneeded]
  refine congrArg (· ++ _) (List.flatMap_congr fun k hk => ?_)
  rw [cellUnder_append h hk]

/-- **THE INTAKE ENDS IN THE SAME WAY**, unless there was no header at all.  Without any
    header the intake fails, while the appended one would be read. -/
theorem run_append (hc : OwnsName columns c) (hauto : c.isAutoIncrementing = true)
    (hwithout : ∀ h ∈ headers s, sameName c.name (trimmed h.text) = false)
    (h : AppendsBlank c.name s s') (hheaders : headers s ≠ []) (w : Watch) (table : String) :
    run w s' columns table
      = (run w s columns table).map fun _ =>
          ⟨datasetOf table (keptHeaders columns s') (rowValues 2 (body columns s')),
            headerProblems columns (select columns (headers s))
              ++ rowProblems 2 (body columns s') (keptHeaders columns s')⟩ := by
  have hlength := length_body_append hc hwithout h
  have hbody : (body columns s').isEmpty = (body columns s).isEmpty := by
    rw [Bool.eq_iff_iff, List.isEmpty_iff_length_eq_zero, List.isEmpty_iff_length_eq_zero, hlength]
  have hsome : (headers s').isEmpty = (headers s).isEmpty := by
    rw [headers_append hc.solid h, List.isEmpty_eq_false_iff.mpr hheaders]
    simp
  rw [run_eq, run_eq, headerProblems_append hc hauto hwithout h, hlength, hbody, hsome]
  split_ifs <;> rfl

end Intake

/-! ## The insertion -/

/-- The dataset has the columns and the rows of another one, and one more column at the
    end.  Nothing is said of the values in that column. -/
structure Dataset.ExtendedBy (d : Dataset) (name : String) (d' : Dataset) : Prop where
  table : d'.table = d.table
  columns : ∃ values, d'.columns = d.columns ++ [⟨name, values⟩]
  rowCount : d'.rowCount = d.rowCount

theorem Dataset.ExtendedBy.names {d d' : Dataset} {name : String} (h : d.ExtendedBy name d') :
    d'.names = d.names ++ [name] := by
  obtain ⟨values, hcolumns⟩ := h.columns
  rw [Dataset.names, hcolumns, List.map_append]
  rfl

/-- Two rows have the same values under some names, and both may have more. -/
def Row.AgreeOn (names : List String) (a b : Row) : Prop := ∀ name ∈ names, a.get? name = b.get? name

/-- **THE ROWS AGREE** on the columns of the smaller dataset. -/
theorem Dataset.ExtendedBy.rows_agree {d d' : Dataset} {name : String}
    (h : d.ExtendedBy name d') (hd : d.Built) (hd' : d'.Built) :
    List.Forall₂ (Row.AgreeOn d.names) d'.rows d.rows := by
  obtain ⟨values, hcolumns⟩ := h.columns
  refine List.forall₂_iff_get.mpr ⟨by rw [length_rows, length_rows, h.rowCount], ?_⟩
  intro i hi' hi name hname
  obtain ⟨c, hc, rfl⟩ := List.mem_map.mp hname
  have hc' : c ∈ d'.columns := by
    rw [hcolumns]
    exact List.mem_append_left _ hc
  obtain ⟨v, hv, hget⟩ := get?_row hd (List.getElem?_eq_getElem hi) hc
  obtain ⟨v', hv', hget'⟩ := get?_row hd' (List.getElem?_eq_getElem hi') hc'
  rw [List.get_eq_getElem, List.get_eq_getElem, hget, hget', ← hv, ← hv']

namespace Gateway

variable {columns : List String}

/-- Rows are inserted in the same way if they agree on the columns that are written. -/
theorem insertRows_of_agree (w : Watch) (table : String) {rows rows' : List Row}
    (h : List.Forall₂ (Row.AgreeOn columns) rows' rows) :
    ∀ i, insertRows w table columns i rows' = insertRows w table columns i rows := by
  induction h with
  | nil => intro i; rfl
  | @cons row' row rows' rows hrow _ ih =>
      intro i
      have hvalues : columns.map (fun c => (row'.get? c).getD .null)
          = columns.map fun c => (row.get? c).getD .null :=
        List.map_congr_left fun c hc => by rw [hrow c hc]
      rw [insertRows, insertRows, rowInsert, hvalues, ih (i + 1)]
      rfl

/-- A generated column is not among those that are written. -/
theorem writtenColumns_append {generated : List String} {name : String}
    (hname : generated.any (sameName name) = true) (names : List String) :
    writtenColumns generated (names ++ [name]) = writtenColumns generated names := by
  induction names with
  | nil =>
      rw [List.nil_append, writtenColumns, writtenColumns, if_pos hname]
      rfl
  | cons first names ih =>
      rw [List.cons_append, writtenColumns, writtenColumns, ih]

/-- A generated column does not change what is decided before the first row. -/
theorem insertPlan_append {g : Gateway} {w : Watch} {d d' : Dataset} {db : Database}
    {name : String} (h : d.ExtendedBy name d')
    (hgenerated : reportsGenerated db d.table name = true) :
    insertPlan g w d' db = insertPlan g w d db := by
  rw [insertPlan, insertPlan, h.table, h.names]
  rw [reportsGenerated] at hgenerated
  cases hinfos : Catalog.liveColumns db d.table with
  | error f => rfl
  | ok infos =>
      rw [hinfos] at hgenerated
      have hskip : insertableColumns (generatedNames infos) (d.names ++ [name])
          = insertableColumns (generatedNames infos) d.names := by
        rw [insertableColumns, insertableColumns, writtenColumns_append hgenerated]
      refine congrArg (checkTable d.table >>= ·) (funext fun _ => ?_)
      refine congrArg (checkpoint w.atStart >>= ·) (funext fun _ => ?_)
      refine congrArg (g.checkAddress >>= ·) (funext fun _ => ?_)
      exact hskip

/-- **A GENERATED COLUMN CHANGES NOTHING** of what is inserted.  The database makes the
    values of such a column, so the insertion leaves it out of its statements. -/
theorem insertDataset_skips (g : Gateway) (w : Watch) {d d' : Dataset} (hd : d.Built)
    (hd' : d'.Built) {name : String} (h : d.ExtendedBy name d') (σ : Session)
    (hgenerated : reportsGenerated σ.database d.table name = true) :
    (g.insertDataset w d').run σ = (g.insertDataset w d).run σ := by
  rw [run_insertDataset, run_insertDataset, insertPlan_append h hgenerated]
  cases hplan : insertPlan g w d σ.database with
  | error f => rfl
  | ok columns =>
      obtain ⟨-, -, infos, -, hcolumns⟩ := insertPlan_eq_ok hplan
      have hsub : ∀ c ∈ columns, c ∈ d.names := by
        intro c hc
        rw [hcolumns] at hc
        exact List.mem_of_mem_filter hc
      have hagree : List.Forall₂ (Row.AgreeOn columns) d'.rows d.rows :=
        (h.rows_agree hd hd').imp fun a b hab c hc => hab c (hsub c hc)
      dsimp only
      rw [h.table, insertRows_of_agree w d.table hagree]

end Gateway

/-! ## Both together -/

namespace Intake

variable {columns : List ColumnInfo} {s s' : Sheet} {c : ColumnInfo}

/-- **WHAT IS READ OF THE COLUMN**: the dataset has one column more, at its end.  Its
    cells are blank, so it holds NULLs or substitutes. -/
theorem extendedBy_of_append (hc : OwnsName columns c)
    (hwithout : ∀ h ∈ headers s, sameName c.name (trimmed h.text) = false)
    (h : AppendsBlank c.name s s') {w : Watch} {table : String} {r r' : Report}
    (hrun : run w s columns table = .ok r) (hrun' : run w s' columns table = .ok r') :
    r.dataset.ExtendedBy c.name r'.dataset := by
  obtain ⟨place, hkept⟩ := keptHeaders_append hc hwithout h
  have hcount : r'.dataset.rowCount = r.dataset.rowCount := by
    rw [rowCount_of_run hrun', rowCount_of_run hrun, length_body_append hc hwithout h]
  -- the kept columns read the same cells in both sheets
  have hold : ((keptHeaders columns s).map fun k => DataColumn.mk k.info.name
        ((List.range r.dataset.rowCount).map fun i => content k.info (cellUnder s' (i + 2) k)))
      = r.dataset.columns := by
    rw [run_columns hrun]
    refine List.map_congr_left fun k hk => congrArg (DataColumn.mk k.info.name) ?_
    exact List.map_congr_left fun i _ => by rw [cellUnder_append h hk]
  refine ⟨?_, ?_, hcount⟩
  · rw [(run_eq_ok hrun').2.2.1, (run_eq_ok hrun).2.2.1]
    rfl
  · rw [run_columns hrun', hkept, List.map_append, hcount, hold]
    exact ⟨_, rfl⟩

/-- **A GENERATED COLUMN THAT IS LEFT BLANK** is not the same as one that is left out.  Read with
    a blank column for it, a sheet fails in the same way, or gives rows that are inserted in the
    same way; but to the problems of each row one is added, that its value is missing, so that
    the report is never clean. -/
theorem run_blank_generated (columns : List ColumnInfo) (c : ColumnInfo)
    (hc : OwnsName columns c) (hauto : c.isAutoIncrementing = true)
    (hneeded : c.isNullable = false) (s s' : Sheet)
    (hwithout : ∀ h ∈ headers s, sameName c.name (trimmed h.text) = false)
    (happended : AppendsBlank c.name s s') (w : Watch) (table : String) :
    (headers s ≠ [] → ∀ f, run w s columns table = .error f →
        run w s' columns table = .error f)
      ∧ ∀ r, run w s columns table = .ok r → ∃ r', run w s' columns table = .ok r'
        ∧ r.problems = headerLog columns s
          ++ (List.range r.dataset.rowCount).flatMap (rowLog columns s)
        ∧ r'.problems = headerLog columns s
          ++ ((List.range r.dataset.rowCount).flatMap fun i =>
            rowLog columns s i ++ [.missingValue c.name (i + 2)])
        ∧ r'.isClean = false
        ∧ ∀ (g : Gateway) (w' : Watch) (σ : Session),
          Gateway.reportsGenerated σ.database table c.name = true →
          (g.insertDataset w' r'.dataset).run σ = (g.insertDataset w' r.dataset).run σ := by
  constructor
  · intro hheaders f hrun
    rw [run_append hc hauto hwithout happended hheaders, hrun]
    rfl
  · intro r hrun
    have hbody := (run_eq_ok hrun).1
    have hheaders : headers s ≠ [] := by
      obtain ⟨k, hk, -⟩ := body_ne_nil_iff.mp hbody
      exact List.ne_nil_of_mem (header_mem_of_kept hk)
    obtain ⟨r', hrun'⟩ : ∃ r', run w s' columns table = .ok r' := by
      rw [run_append hc hauto hwithout happended hheaders, hrun]
      exact ⟨_, rfl⟩
    have hextended := extendedBy_of_append hc hwithout happended hrun hrun'
    have hproblems : r'.problems = headerLog columns s
        ++ ((List.range r.dataset.rowCount).flatMap fun i =>
          rowLog columns s i ++ [.missingValue c.name (i + 2)]) := by
      have hrows : rowLog columns s'
          = fun i => rowLog columns s i ++ [.missingValue c.name (i + 2)] :=
        funext (rowLog_append hc hneeded hwithout happended)
      rw [run_problems_eq hrun', problemLog, ← headerProblems_eq,
        headerProblems_append hc hauto hwithout happended, headerProblems_eq,
        hextended.rowCount, ← hrows]
      rfl
    refine ⟨r', hrun', run_problems_eq hrun, hproblems, ?_, ?_⟩
    · -- at least one row was read
      rw [Report.isClean, hproblems, rowCount_of_run hrun]
      obtain ⟨n, hn⟩ := Nat.exists_eq_succ_of_ne_zero (mt List.length_eq_zero_iff.mp hbody)
      rw [hn, List.range_succ_eq_map]
      simp
    · intro g w' σ hgenerated
      have htable : r.dataset.table = table := by
        rw [(run_eq_ok hrun).2.2.1]
        rfl
      exact Gateway.insertDataset_skips g w' (built_of_run hrun) (built_of_run hrun') hextended σ
        (by rwa [htable])

/-- The columns of the crew. -/
def crewColumns : List ColumnInfo := [
  { name := "Id", dataType := "Integer", isAutoIncrementing := true, isPrimaryKey := true },
  { name := "Name", dataType := "String" }]

/-- The crew, without a header for the generated column. -/
def crewSheet : Sheet := Sheet.ofRows [["Name"], ["Ada"], ["Alan"]]

/-- The crew, with that header over blank cells.  The last row ends before it. -/
def crewForm : Sheet := Sheet.ofRows [["Name", "Id"], ["Ada", " "], ["Alan"]]

/-- A table for the crew. -/
def crew : Table where
  name := "Crew"
  writtenName := "Crew"
  definition := " (Id INTEGER PRIMARY KEY AUTOINCREMENT, Name TEXT NOT NULL)"
  generated := true
  columns := [
    { name := "Id", declaredType := "INTEGER", primaryKey := true },
    { name := "Name", declaredType := "TEXT", notNull := true }]

/-- A session with that table. -/
def crewSession : Session where
  database := { tables := [crew], sequence := some [] }

theorem crewForm_appendsBlank : AppendsBlank "Id" crewSheet crewForm where
  header := rfl
  ended := rfl
  blank i := by
    match i with
    | 0 => rfl
    | 1 => rfl
    | i + 2 => rfl
  same i j hj := by
    have hzero : j = 0 := Nat.lt_one_iff.mp hj
    subst hzero
    match i with
    | 0 => rfl
    | 1 => rfl
    | 2 => rfl
    | i + 3 => rfl

/-- The crew is clean without the column, and is not with it.  All the same both are
    inserted in the same way. -/
theorem run_blank_generated_crew :
    ∃ r r', run .never crewSheet crewColumns "Crew" = .ok r ∧ r.problems = []
      ∧ run .never crewForm crewColumns "Crew" = .ok r'
      ∧ r'.problems = [.missingValue "Id" 2, .missingValue "Id" 3]
      ∧ (Gateway.insertDataset ⟨.ok "memory"⟩ .never r'.dataset).run crewSession
        = (Gateway.insertDataset ⟨.ok "memory"⟩ .never r.dataset).run crewSession := by
  have hvalid : Identifier.isValid [] "Id" = true := by decide +kernel
  have hrun : run .never crewSheet crewColumns "Crew"
      = .ok ⟨⟨"Crew", [⟨"Name", [.text "Ada", .text "Alan"]⟩]⟩, []⟩ := by decide +kernel
  obtain ⟨r', hrun', -, hproblems, -, hsame⟩ :=
    (run_blank_generated crewColumns _
      ⟨List.mem_cons_self .., Identifier.solid_of_isValid hvalid, by decide +kernel⟩ rfl rfl
      crewSheet crewForm (by decide +kernel) crewForm_appendsBlank .never "Crew").2 _ hrun
  refine ⟨_, r', hrun, rfl, hrun', ?_, hsame ⟨.ok "memory"⟩ .never crewSession (by decide +kernel)⟩
  rw [hproblems]
  decide +kernel

end Intake

end Gridbase
