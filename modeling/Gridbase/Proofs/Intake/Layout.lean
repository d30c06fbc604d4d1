import Gridbase.Proofs.Intake.Content

/-! # The layout of a sheet

    It makes no difference where a header stands, nor which headers without a column stand
    beside it: sheets whose headers name the same columns, over the same texts, give the same
    columns of values.

    * Where no column is named twice, every header that names a column is kept
      (`keptHeaders_of_namesOnce`).
    * The data of both sheets ends at the same row (`SameTexts.length_body`).
    * The values under a header are known from its column and the texts (`columnUnder`), so both
      datasets have the same columns, in some order (`SameTexts.perm`). -/

namespace Gridbase.Intake

open Gridbase.Text

variable {columns : List ColumnInfo} {s s' : Sheet} {w : Watch} {table : String}

/-! ## Sheets with the same texts -/

/-- No two headers name one column.  Headers that name none may be repeated. -/
def NamesOnce (columns : List ColumnInfo) (s : Sheet) : Prop :=
  (matched columns (headers s)).Pairwise fun a b => a.place ≠ b.place

/-- Every header of `s` that names a column has a counterpart in `s'`, which names the same
    column over the same texts. -/
def Carried (columns : List ColumnInfo) (s s' : Sheet) : Prop :=
  ∀ k ∈ matched columns (headers s), ∃ k' ∈ matched columns (headers s'),
    k'.place = k.place ∧ ∀ i, cellUnder s' (i + 2) k' = cellUnder s (i + 2) k

/-- The headers of both sheets name the same columns, each once, over the same texts.
    Where the headers stand, how they are spelled, and what else is in the sheets, is
    left open. -/
structure SameTexts (columns : List ColumnInfo) (s s' : Sheet) : Prop where
  once : NamesOnce columns s
  once' : NamesOnce columns s'
  carried : Carried columns s s'
  carried' : Carried columns s' s

theorem SameTexts.symm (h : SameTexts columns s s') : SameTexts columns s' s :=
  ⟨h.once', h.once, h.carried', h.carried⟩

theorem keptHeaders_of_namesOnce (h : NamesOnce columns s) :
    keptHeaders columns s = matched columns (headers s) :=
  firstUses_of_pairwise h

/-- The place of a column tells which one it is. -/
theorem info_eq_of_place_eq {hs hs' : List Header} {k k' : Kept} (hk : k ∈ matched columns hs)
    (hk' : k' ∈ matched columns hs') (hplace : k'.place = k.place) : k'.info = k.info := by
  have hat := (firstNamed_of_named (named_of_mem_matched hk).2).at_place
  have hat' := (firstNamed_of_named (named_of_mem_matched hk').2).at_place
  rw [hplace] at hat'
  exact Option.some.inj (hat'.symm.trans hat)

/-! ## Rows -/

namespace SameTexts

/-- A row with data in the one sheet has data in the other. -/
theorem rowHasData (h : SameTexts columns s s') {i : Nat}
    (hdata : Intake.rowHasData columns s i) : Intake.rowHasData columns s' i := by
  obtain ⟨k, hk, hsolid⟩ := hdata
  rw [keptHeaders_of_namesOnce h.once] at hk
  obtain ⟨k', hk', -, htexts⟩ := h.carried k hk
  refine ⟨k', ?_, ?_⟩
  · rwa [keptHeaders_of_namesOnce h.once']
  · rwa [htexts i]

/-- **AS MANY ROWS ARE READ** of both sheets.  Only texts under headers that name a
    column count as data. -/
theorem length_body (h : SameTexts columns s s') :
    (body columns s).length = (body columns s').length :=
  length_body_eq fun _ => ⟨h.rowHasData, h.symm.rowHasData⟩

end SameTexts

/-- **WHEN AN INTAKE SUCCEEDS**: the table has a name, some row has data, and no check observes
    that cancellation is requested. -/
theorem run_isOk_iff :
    (∃ r, run w s columns table = .ok r)
      ↔ allBlank table = false ∧ 0 < (body columns s).length
        ∧ ∀ i < (body columns s).length, w.beforeRow i = false := by
  constructor
  · rintro ⟨r, h⟩
    rw [run_eq] at h
    split_ifs at h with _ htable _ hbody hseen
    refine ⟨Bool.eq_false_iff.mpr htable, ?_, ?_⟩
    · exact List.length_pos_iff.mpr fun hnil => hbody (by rw [hnil]; rfl)
    · simpa using hseen
  · rintro ⟨htable, hbody, hunseen⟩
    exact run_isOk htable (List.length_pos_iff.mp hbody) hunseen

/-! ## Columns -/

/-- The column of values that a sheet of `n` rows gives under a header. -/
def columnUnder (s : Sheet) (n : Nat) (k : Kept) : DataColumn where
  name := k.info.name
  values := (List.range n).map fun i => content k.info (cellUnder s (i + 2) k)

/-- The columns under the kept headers differ in their names. -/
theorem nodup_columnUnder (columns : List ColumnInfo) (s : Sheet) (n : Nat) :
    ((keptHeaders columns s).map (columnUnder s n)).Nodup := by
  rw [List.Nodup, List.pairwise_map]
  refine (distinct_keptHeaders columns s).imp ?_
  intro a b hnames heq
  have hsame : a.info.name = b.info.name := congrArg DataColumn.name heq
  rw [hsame, sameName_refl] at hnames
  exact nomatch hnames

namespace SameTexts

/-- A column of the one sheet stands in the other. -/
theorem mem_columns (h : SameTexts columns s s') {n : Nat} {c : DataColumn}
    (hc : c ∈ (keptHeaders columns s).map (columnUnder s n)) :
    c ∈ (keptHeaders columns s').map (columnUnder s' n) := by
  obtain ⟨k, hk, rfl⟩ := List.mem_map.mp hc
  rw [keptHeaders_of_namesOnce h.once] at hk
  obtain ⟨k', hk', hplace, htexts⟩ := h.carried k hk
  rw [keptHeaders_of_namesOnce h.once']
  refine List.mem_map.mpr ⟨k', hk', ?_⟩
  simp only [columnUnder, info_eq_of_place_eq hk hk' hplace, htexts]

/-- **BOTH SHEETS GIVE THE SAME COLUMNS**, in some order.  The order is that of the
    headers, so it differs from sheet to sheet. -/
theorem perm (h : SameTexts columns s s') (n : Nat) :
    ((keptHeaders columns s).map (columnUnder s n)).Perm
      ((keptHeaders columns s').map (columnUnder s' n)) := by
  refine (List.perm_ext_iff_of_nodup (nodup_columnUnder ..) (nodup_columnUnder ..)).mpr ?_
  intro c
  constructor
  · exact h.mem_columns
  · exact h.symm.mem_columns

end SameTexts

/-- **THE LAYOUT OF A SHEET MAKES NO DIFFERENCE**: of two sheets whose headers name the same
    columns over the same texts, both are read or neither, and the values under every name are
    the same. -/
theorem run_of_sameTexts (h : SameTexts columns s s') (w : Watch) (table : String) :
    ((∃ r, run w s columns table = .ok r) ↔ ∃ r', run w s' columns table = .ok r')
      ∧ ∀ r r', run w s columns table = .ok r → run w s' columns table = .ok r' →
        r.dataset.columns.Perm r'.dataset.columns
          ∧ ∀ name, r.dataset.column? name = r'.dataset.column? name := by
  constructor
  · rw [run_isOk_iff, run_isOk_iff, h.length_body]
  · intro r r' hr hr'
    have hcount : r.dataset.rowCount = r'.dataset.rowCount := by
      rw [rowCount_of_run hr, rowCount_of_run hr', h.length_body]
    have hperm : r.dataset.columns.Perm r'.dataset.columns := by
      rw [run_columns hr, run_columns hr', hcount]
      exact h.perm r'.dataset.rowCount
    exact ⟨hperm, Dataset.column?_of_perm (built_of_run hr) (built_of_run hr') hperm⟩

/-- Two people. -/
def pairSheet : Sheet := Sheet.ofRows [
  ["Name", "Age"],
  ["Ada", "36"],
  ["", "41"]]

/-- The same people, with their columns exchanged and others between them.  The last row
    has something only where no column is named. -/
def pairSheet' : Sheet := Sheet.ofRows [
  ["Note", " age", "City", "NAME"],
  ["x", "36", "", "Ada"],
  ["", "41", "y"],
  ["z", "", "z"]]

/-- The columns of the pairs. -/
def pairColumns : List ColumnInfo := [
  { name := "Age", dataType := "Integer" },
  { name := "Name", dataType := "String" },
  { name := "Born", dataType := "DateTime" }]

/-- What is read of the first sheet. -/
def pairReport : Report where
  dataset := ⟨"People", [⟨"Name", [.text "Ada", .text ""]⟩, ⟨"Age", [.int 36, .int 41]⟩]⟩
  problems := [.missingColumns ["Born"], .missingValue "Name" 3]

/-- The two sheets of people are read alike.  The name that is missing in the second row
    is reported for both. -/
theorem run_of_sameTexts_pair :
    SameTexts pairColumns pairSheet pairSheet'
      ∧ run .never pairSheet pairColumns "People" = .ok pairReport
      ∧ ∃ r', run .never pairSheet' pairColumns "People" = .ok r'
        ∧ pairReport.dataset.columns.Perm r'.dataset.columns := by
  have hage : ∀ i, cellUnder pairSheet' (i + 2) ⟨⟨" age", 2⟩, pairColumns[0], 0⟩
      = cellUnder pairSheet (i + 2) ⟨⟨"Age", 2⟩, pairColumns[0], 0⟩
    | 0 | 1 | 2 | _ + 3 => rfl
  have hname : ∀ i, cellUnder pairSheet' (i + 2) ⟨⟨"NAME", 4⟩, pairColumns[1], 1⟩
      = cellUnder pairSheet (i + 2) ⟨⟨"Name", 1⟩, pairColumns[1], 1⟩
    | 0 | 1 | 2 | _ + 3 => rfl
  have hmatched : matched pairColumns (headers pairSheet)
      = [⟨⟨"Name", 1⟩, pairColumns[1], 1⟩, ⟨⟨"Age", 2⟩, pairColumns[0], 0⟩] := by decide +kernel
  have hmatched' : matched pairColumns (headers pairSheet')
      = [⟨⟨" age", 2⟩, pairColumns[0], 0⟩, ⟨⟨"NAME", 4⟩, pairColumns[1], 1⟩] := by decide +kernel
  -- both sheets match the same columns, which carry the same texts
  have hsame : SameTexts pairColumns pairSheet pairSheet' := by
    refine ⟨?_, ?_, ?_, ?_⟩
    · rw [NamesOnce, hmatched]
      decide
    · rw [NamesOnce, hmatched']
      decide
    · rw [Carried, hmatched, hmatched']
      simp [hage, hname]
    · rw [Carried, hmatched, hmatched']
      simp [hage, hname]
  have hrun : run .never pairSheet pairColumns "People" = .ok pairReport := by rfl
  obtain ⟨hboth, halike⟩ := run_of_sameTexts hsame .never "People"
  obtain ⟨r', hrun'⟩ := hboth.mp ⟨pairReport, hrun⟩
  exact ⟨hsame, hrun, r', hrun', (halike pairReport r' hrun hrun').1⟩

end Gridbase.Intake
