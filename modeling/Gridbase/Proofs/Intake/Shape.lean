import Gridbase.Proofs.Intake.Rows

/-! # The shape of an ingested dataset

    A sheet that is read gives a table: one column for each column of the metadata
    that a header names, all of one length, which is the number of rows up to the
    first without data.  The columns are therefore never cut. -/

namespace Gridbase.Intake

open Gridbase.Text

/-! ## Where the data ends -/

/-- The prefix that is taken ends at the first item that fails, or at the end. -/
theorem takeWhile_ends {α : Type} {p : α → Bool} {fill : α} (hfill : p fill = false)
    (items : List α) :
    (∀ i < (items.takeWhile p).length, p (items[i]?.getD fill) = true)
      ∧ p (items[(items.takeWhile p).length]?.getD fill) = false := by
  induction items with
  | nil => exact ⟨fun _ hi => absurd hi (Nat.not_lt_zero _), hfill⟩
  | cons a items ih =>
      by_cases ha : p a = true
      · rw [List.takeWhile_cons_of_pos ha]
        refine ⟨?_, ih.2⟩
        intro i hi
        cases i with
        | zero => exact ha
        | succ i => exact ih.1 i (Nat.lt_of_succ_lt_succ hi)
      · rw [List.takeWhile_cons_of_neg ha]
        exact ⟨fun _ hi => absurd hi (Nat.not_lt_zero _), Bool.eq_false_iff.mpr ha⟩

/-- The text of a sheet in a row, counted from 1, under a header.  Where the row ends
    before the header it is empty. -/
def cellUnder (s : Sheet) (row : Nat) (k : Kept) : String :=
  Sheet.textAt s.rows (row - 1) (k.header.position - 1)

/-- A row has data exactly if a text under a kept header is not blank. -/
theorem hasData_iff {kept : List Kept} {cells : List String} :
    hasData kept cells = true ↔ ∃ k ∈ kept, allBlank (textUnder cells k) = false := by
  simp [hasData]

/-- The text of a row, counted from zero, under a header. -/
theorem textUnder_row (s : Sheet) (i : Nat) (k : Kept) :
    textUnder (s.rows[i]?.getD []) k = cellUnder s (i + 1) k := by
  rw [textUnder, cellUnder, Sheet.textAt, Nat.add_sub_cancel]
  cases s.rows[i]? <;> rfl

/-- Beyond the sheet there is no data. -/
theorem hasData_nil (kept : List Kept) : hasData kept [] = false := by
  rw [Bool.eq_false_iff]
  intro h
  obtain ⟨k, -, hk⟩ := hasData_iff.mp h
  exact nomatch hk

/-- **THE DATA ENDS** with the rows that are read: each of them has data, and the
    row after them has none. -/
theorem body_ends (columns : List ColumnInfo) (s : Sheet) :
    (∀ i < (body columns s).length,
        ∃ k ∈ keptHeaders columns s, allBlank (cellUnder s (i + 2) k) = false)
      ∧ ∀ k ∈ keptHeaders columns s,
        allBlank (cellUnder s ((body columns s).length + 2) k) = true := by
  -- data row `i` is row `i + 2` of the sheet
  have hrow (i : Nat) : (s.rows.drop 1)[i]?.getD [] = s.rows[i + 1]?.getD [] := by
    rw [List.getElem?_drop, Nat.add_comm]
  obtain ⟨hall, hend⟩ :=
    takeWhile_ends (hasData_nil (keptHeaders columns s)) (s.rows.drop 1)
  constructor
  · intro i hi
    have hdata := hall i hi
    rw [hrow] at hdata
    obtain ⟨k, hk, hblank⟩ := hasData_iff.mp hdata
    rw [textUnder_row] at hblank
    exact ⟨k, hk, hblank⟩
  · intro k hk
    rw [hrow] at hend
    cases hblank : allBlank (cellUnder s ((body columns s).length + 2) k) with
    | true => rfl
    | false =>
        rw [← textUnder_row] at hblank
        exact absurd (hasData_iff.mpr ⟨k, hk, hblank⟩) (Bool.eq_false_iff.mp hend)

/-! ## The shape -/

/-- The dataset has the columns of the kept headers under distinct names, and in
    each of them a value for every row of the sheet from 2 to `n + 1`; these rows
    have data, and the next one has none. -/
structure HasShape (columns : List ColumnInfo) (s : Sheet) (d : Dataset) (n : Nat) : Prop where
  names : d.names = (firstUses (matched columns (headers s))).map fun k => k.info.name
  distinct : d.names.Pairwise fun a b => sameName a b = false
  length : ∀ c ∈ d.columns, c.values.length = n
  one_le : 1 ≤ n
  data : ∀ i < n, ∃ k ∈ firstUses (matched columns (headers s)),
    allBlank (cellUnder s (i + 2) k) = false
  ended : ∀ k ∈ firstUses (matched columns (headers s)), allBlank (cellUnder s (n + 2) k) = true

/-- A problem with a cell is not about the length of columns. -/
theorem unevenColumns_not_mem_readCell (message : String) (row : Nat) (cells : List String)
    (k : Kept) : .unevenColumns message ∉ (readCell row cells k).2 := by
  have hvalue : .unevenColumns message ∉ (cellValue row k (textUnder cells k)).2 := by
    rw [cellValue]
    split
    · exact List.not_mem_nil
    · split
      · simp
      · split <;> simp
  rw [readCell_eq]
  split
  · simpa using hvalue
  · exact hvalue

/-- Problems with the headers and the rows are not about the length of columns. -/
theorem unevenColumns_not_mem (columns : List ColumnInfo) (s : Sheet) (message : String) :
    .unevenColumns message ∉ headerProblems columns (select columns (headers s))
      ++ rowProblems 2 (body columns s) (keptHeaders columns s) := by
  intro hmem
  rcases List.mem_append.mp hmem with hheader | hrow
  · rw [headerProblems] at hheader
    simp only [List.mem_append, List.mem_map] at hheader
    rcases hheader with (⟨_, -, hp⟩ | hp) | hp
    · exact nomatch hp
    · split at hp <;> simp at hp
    · split at hp <;> simp at hp
  · obtain ⟨row, -, hcell⟩ := List.mem_flatMap.mp hrow
    obtain ⟨k, -, hcell⟩ := List.mem_flatMap.mp hcell
    exact unevenColumns_not_mem_readCell message row.2 row.1 k hcell

/-- **THE SHAPE OF AN INGESTED DATASET**: whatever is read has the shape of a table,
    and it was read in that shape, so that nothing was cut. -/
theorem run_hasShape (w : Watch) (s : Sheet) (columns : List ColumnInfo) (table : String)
    (r : Report) (h : run w s columns table = .ok r) :
    (∃ n, HasShape columns s r.dataset n)
      ∧ (∀ message, .unevenColumns message ∉ r.problems)
      ∧ ∃ problems, readRows w (firstUses (matched columns (headers s))) 0 (s.rows.drop 1)
          (emptyDataset table (firstUses (matched columns (headers s))))
        = .ok (r.dataset, problems) ∧ reconcile r.dataset = (r.dataset, []) := by
  obtain ⟨hbody, hread, hdataset, hproblems⟩ := run_eq_ok h
  have hnames : r.dataset.names = (keptHeaders columns s).map fun k => k.info.name := by
    rw [hdataset, Dataset.names, datasetOf, List.map_map]
    rfl
  -- every kept column has one value for each data row
  have hlength : ∀ c ∈ r.dataset.columns, c.values.length = (body columns s).length := by
    rw [hdataset]
    exact fun c hc => length_of_mem_datasetOf hc
  obtain ⟨hdata, hended⟩ := body_ends columns s
  refine ⟨⟨(body columns s).length, hnames, ?_, hlength, List.length_pos_iff.mpr hbody,
    hdata, hended⟩, ?_, _, hread, reconcile_of_length hlength⟩
  · rw [hnames, List.pairwise_map]
    exact distinct_keptHeaders columns s
  · intro message
    rw [hproblems]
    exact unevenColumns_not_mem columns s message

/-- A sheet with a repeated header, an unknown one, a gap in a row and rows that are
    no longer read. -/
def peopleSheet : Sheet := Sheet.ofRows [
  [" name", "Age", "NAME", "Note", "", "Name"],
  ["Ada", "36", "x"],
  ["", "forty"],
  ["", " ", "x", "y"],
  ["Alan", "41"]]

/-- The columns of the people.  The last one has the name of the first, so no header
    chooses it. -/
def peopleColumns : List ColumnInfo := [
  { name := "Age", dataType := "Integer" },
  { name := "Name", dataType := "String", isNullable := true },
  { name := "age", dataType := "String" }]

/-- What is read of the people. -/
def peopleReport : Report where
  dataset := ⟨"People", [⟨"Name", [.text "Ada", .null]⟩, ⟨"Age", [.int 36, .int 0]⟩]⟩
  problems := [
    .duplicateHeader "NAME" 3,
    .invalidHeaders ["Note"],
    .rejectedCell ⟨"Age", 3, "forty"⟩ .notInteger,
    .missingValue "Age" 3]

/-- The people have the shape of a table.  A header that is repeated, one that is
    unknown and a cell that is no number do not disturb it. -/
theorem peopleReport_hasShape :
    run .never peopleSheet peopleColumns "People" = .ok peopleReport
      ∧ (∃ n, HasShape peopleColumns peopleSheet peopleReport.dataset n)
      ∧ ∀ message, .unevenColumns message ∉ peopleReport.problems := by
  have hrun : run .never peopleSheet peopleColumns "People" = .ok peopleReport := by
    rfl
  obtain ⟨hshape, hproblems, -⟩ := run_hasShape .never peopleSheet peopleColumns "People" _ hrun
  exact ⟨hrun, hshape, hproblems⟩

end Gridbase.Intake
