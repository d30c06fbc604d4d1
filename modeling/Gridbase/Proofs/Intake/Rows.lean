import Gridbase.Proofs.Dataset
import Gridbase.Proofs.Intake.Selection

/-! # The rows of an intake

    The reader pushes value after value into the column that a name finds.  As the
    kept headers choose columns of distinct names, every value lands in its own
    column, and the dataset has a closed form at every moment (`datasetOf`): one
    column for each kept header, with the values of the rows read so far.

    * `readRow_eq` is the step: a row adds one value to every column.
    * `readRows_eq` is the run: the rows with data are read one after the other,
      unless cancellation is requested before one of them.
    * `run_eq` is a whole intake, and `run_eq_ok` what it gives. -/

namespace Gridbase.Intake

open Gridbase.Text

/-! ## Closed forms -/

/-- The headers choose columns of distinct names, so that each of them has a column of
    the dataset to itself. -/
def Distinct (kept : List Kept) : Prop :=
  kept.Pairwise fun a b => sameName a.info.name b.info.name = false

/-- A dataset with a column for every kept header. -/
def datasetOf (table : String) (kept : List Kept) (values : Kept → List Value) : Dataset where
  table := table
  columns := kept.map fun k => ⟨k.info.name, values k⟩

/-- The values of rows under a header; the first row has the given number. -/
def rowValues (first : Nat) (body : List (List String)) (k : Kept) : List Value :=
  (body.zipIdx first).map fun r => (readCell r.2 r.1 k).1

/-- The problems with rows, row by row and header by header: the order in which they are
    reported. -/
def rowProblems (first : Nat) (body : List (List String)) (kept : List Kept) : List Problem :=
  (body.zipIdx first).flatMap fun r => kept.flatMap fun k => (readCell r.2 r.1 k).2

theorem rowValues_cons (first : Nat) (cells : List String) (body : List (List String)) (k : Kept) :
    rowValues first (cells :: body) k
      = (readCell first cells k).1 :: rowValues (first + 1) body k := by
  rw [rowValues, List.zipIdx_cons]
  rfl

theorem rowProblems_cons (first : Nat) (cells : List String) (body : List (List String))
    (kept : List Kept) :
    rowProblems first (cells :: body) kept
      = (kept.flatMap fun k => (readCell first cells k).2)
        ++ rowProblems (first + 1) body kept := by
  rw [rowProblems, List.zipIdx_cons, List.flatMap_cons]
  rfl

theorem length_rowValues (first : Nat) (body : List (List String)) (k : Kept) :
    (rowValues first body k).length = body.length := by
  rw [rowValues, List.length_map, List.length_zipIdx]

/-! ## Columns -/

/-- Columns of distinct names are added one after the other. -/
theorem foldl_pushColumn (table : String) (kept : List Kept) :
    ∀ done : List Kept, Distinct (done ++ kept) →
      kept.foldl (fun d k => d.pushColumn k.info.name []) (datasetOf table done fun _ => [])
        = datasetOf table (done ++ kept) fun _ => [] := by
  -- induction on the kept columns; those done and those left have distinct names
  induction kept with
  | nil => intro done _; rw [List.append_nil]; rfl
  | cons k kept ih =>
      intro done h
      have hnew : ∀ c ∈ (datasetOf table done fun _ => []).columns,
          sameName c.name k.info.name = false := by
        intro c hc
        obtain ⟨m, hm, rfl⟩ := List.mem_map.mp hc
        exact (List.pairwise_append.mp h).2.2 m hm k (List.mem_cons_self ..)
      have hpush : (datasetOf table done fun _ => []).pushColumn k.info.name []
          = datasetOf table (done ++ [k]) fun _ => [] := by
        rw [Dataset.pushColumn_of_new hnew, datasetOf, datasetOf, List.map_append]
        rfl
      rw [List.foldl_cons, hpush, ih (done ++ [k]) (by rwa [← List.append_cons]),
        ← List.append_cons]

/-- Before any row there is an empty column for every kept header. -/
theorem emptyDataset_eq (table : String) {kept : List Kept} (h : Distinct kept) :
    emptyDataset table kept = datasetOf table kept fun _ => [] :=
  foldl_pushColumn table kept [] h

/-! ## One cell -/

/-- A blank text gives no value, and no problem. -/
theorem cellValue_of_blank {text : String} (h : allBlank text = true) (row : Nat) (k : Kept) :
    cellValue row k text = (.null, []) := by
  rw [cellValue, if_pos h]

/-- A text gives no value if the type of its column is unknown. -/
theorem cellValue_of_unknown {text : String} (h : ¬ allBlank text = true) {k : Kept}
    (htype : DataType.parse? k.info.dataType = none) (row : Nat) :
    cellValue row k text = (.null, [.unsupportedType k.info.dataType k.header.text row]) := by
  rw [cellValue, if_neg h, htype]

/-- A text that its column refuses gives no value. -/
theorem cellValue_of_fault {text : String} (h : ¬ allBlank text = true) {k : Kept} {t : DataType}
    (htype : DataType.parse? k.info.dataType = some t) {fault : CellFault}
    (hread : Cell.read t k.info text = .error fault) (row : Nat) :
    cellValue row k text = (.null, [.rejectedCell ⟨k.header.text, row, text⟩ fault]) := by
  rw [cellValue, if_neg h, htype]
  dsimp only
  rw [hread]

/-- A text that its column accepts gives its value. -/
theorem cellValue_of_read {text : String} (h : ¬ allBlank text = true) {k : Kept} {t : DataType}
    (htype : DataType.parse? k.info.dataType = some t) {v : Value}
    (hread : Cell.read t k.info text = .ok v) (row : Nat) :
    cellValue row k text = (v, []) := by
  rw [cellValue, if_neg h, htype]
  dsimp only
  rw [hread]

/-- A cell without a value is filled where its column needs one. -/
theorem readCell_eq (row : Nat) (cells : List String) (k : Kept) :
    readCell row cells k
      = if (cellValue row k (textUnder cells k)).1.isNull && !k.info.isNullable then
          (filled k.info,
            (cellValue row k (textUnder cells k)).2 ++ [.missingValue k.header.text row])
        else cellValue row k (textUnder cells k) :=
  rfl

/-! ## One row -/

theorem readRow_cons (row : Nat) (cells : List String) (k : Kept) (kept : List Kept)
    (d : Dataset) :
    readRow row cells (k :: kept) d
      = ((readRow row cells kept (d.pushValue k.info.name (readCell row cells k).1)).1,
        (readCell row cells k).2
          ++ (readRow row cells kept (d.pushValue k.info.name (readCell row cells k).1)).2) :=
  rfl

/-- Columns that were filled before are left alone by the rest of their row.  So the
    headers of a row can be gone through one at a time. -/
theorem readRow_append (row : Nat) (cells : List String) (table : String)
    (values : Kept → List Value) (kept : List Kept) :
    ∀ done : List DataColumn,
      (∀ c ∈ done, ∀ k ∈ kept, sameName c.name k.info.name = false) → Distinct kept →
      readRow row cells kept ⟨table, done ++ kept.map fun k => ⟨k.info.name, values k⟩⟩
        = (⟨table, done ++ kept.map fun k =>
            ⟨k.info.name, values k ++ [(readCell row cells k).1]⟩⟩,
          kept.flatMap fun k => (readCell row cells k).2) := by
  -- `done` holds the columns whose value of this row is there already
  induction kept with
  | nil => intro done _ _; rfl
  | cons k kept ih =>
      intro done hdone h
      obtain ⟨hk, hkept⟩ := List.pairwise_cons.mp h
      -- no column before it has the name, so the value lands in the column of `k`
      have hpush : (Dataset.mk table (done ++ (k :: kept).map fun k =>
            ⟨k.info.name, values k⟩)).pushValue k.info.name (readCell row cells k).1
          = ⟨table, (done ++ [⟨k.info.name, values k ++ [(readCell row cells k).1]⟩])
              ++ kept.map fun k => ⟨k.info.name, values k⟩⟩ := by
        refine congrArg (Dataset.mk table) ?_
        show Dataset.modifyColumn _ _ (done ++ _ :: _) = _
        rw [Dataset.modifyColumn_append fun c hc => hdone c hc k (List.mem_cons_self ..),
          Dataset.modifyColumn_self, ← List.append_cons]
      have hrest : ∀ c ∈ done ++ [⟨k.info.name, values k ++ [(readCell row cells k).1]⟩],
          ∀ m ∈ kept, sameName c.name m.info.name = false := by
        intro c hc m hm
        rcases List.mem_append.mp hc with hc | hc
        · exact hdone c hc m (List.mem_cons_of_mem _ hm)
        · rw [List.mem_singleton.mp hc]
          exact hk m hm
      rw [readRow_cons, hpush, ih _ hrest hkept, ← List.append_cons]
      rfl

/-- **A ROW ADDS ONE VALUE** to the column of every kept header. -/
theorem readRow_eq (row : Nat) (cells : List String) (table : String) {kept : List Kept}
    (h : Distinct kept) (values : Kept → List Value) :
    readRow row cells kept (datasetOf table kept values)
      = (datasetOf table kept fun k => values k ++ [(readCell row cells k).1],
        kept.flatMap fun k => (readCell row cells k).2) :=
  readRow_append row cells table values kept [] (fun _ hc => nomatch hc) h

/-! ## All rows -/

/-- A row without data ends the reading. -/
theorem readRows_cons_of_blank (w : Watch) {kept : List Kept} {cells : List String}
    (h : ¬ hasData kept cells = true) (i : Nat) (rest : List (List String)) (d : Dataset) :
    readRows w kept i (cells :: rest) d = .ok (d, []) := by
  rw [readRows, if_neg h]

/-- A row with data is read before the rest, unless cancellation is requested. -/
theorem readRows_cons_of_data (w : Watch) {kept : List Kept} {cells : List String}
    (h : hasData kept cells = true) (i : Nat) (rest : List (List String)) (d : Dataset) :
    readRows w kept i (cells :: rest) d
      = if w.beforeRow i then .error .cancelled
        else
          (readRows w kept (i + 1) rest (readRow (i + 2) cells kept d).1).map
            fun r => (r.1, (readRow (i + 2) cells kept d).2 ++ r.2) := by
  rw [readRows, if_pos h]
  cases w.beforeRow i with
  | true => rfl
  | false =>
      cases readRow (i + 2) cells kept d with
      | mk d problems =>
          dsimp only
          cases readRows w kept (i + 1) rest d <;> rfl

/-- **THE ROWS WITH DATA ARE READ**, up to the first without, unless a check before
    one of them observes that cancellation is requested. -/
theorem readRows_eq (w : Watch) (table : String) {kept : List Kept} (h : Distinct kept)
    (rows : List (List String)) :
    ∀ (i : Nat) (values : Kept → List Value),
      readRows w kept i rows (datasetOf table kept values)
        = if (List.range' i (rows.takeWhile (hasData kept)).length).any w.beforeRow then
            .error .cancelled
          else
            .ok (datasetOf table kept fun k =>
                values k ++ rowValues (i + 2) (rows.takeWhile (hasData kept)) k,
              rowProblems (i + 2) (rows.takeWhile (hasData kept)) kept) := by
  -- the values so far are general: each row with data adds one to every column
  induction rows with
  | nil =>
      intro i values
      simp [readRows, rowValues, rowProblems]
  | cons cells rest ih =>
      intro i values
      by_cases hdata : hasData kept cells = true
      · rw [readRows_cons_of_data w hdata, List.takeWhile_cons_of_pos hdata, List.length_cons,
          List.range'_succ, List.any_cons]
        cases w.beforeRow i with
        | true => rfl
        | false =>
            rw [if_neg Bool.false_ne_true, readRow_eq _ _ _ h, ih, Bool.false_or]
            split
            · rfl
            · simp [rowValues_cons, rowProblems_cons, Except.map]
      · rw [readRows_cons_of_blank w hdata, List.takeWhile_cons_of_neg hdata]
        simp [rowValues, rowProblems]

/-! ## Names -/

theorem built_emptyDataset (table : String) (kept : List Kept) :
    (emptyDataset table kept).Built := by
  have hfold : ∀ {d : Dataset}, d.Built →
      (kept.foldl (fun d k => d.pushColumn k.info.name []) d).Built := by
    induction kept with
    | nil => exact id
    | cons k kept ih => exact fun hd => ih (hd.pushColumn k.info.name [])
  exact hfold (.empty table)

theorem built_readRow (row : Nat) (cells : List String) (kept : List Kept) :
    ∀ {d : Dataset}, d.Built → (readRow row cells kept d).1.Built := by
  induction kept with
  | nil => exact id
  | cons k kept ih => exact fun hd => ih (hd.pushValue k.info.name _)

/-- **ROWS ARE READ INTO A BUILT DATASET.**  Values are pushed one by one, so in between
    the columns are of different lengths. -/
theorem built_readRows {w : Watch} {kept : List Kept} {rows : List (List String)} :
    ∀ {i : Nat} {d d' : Dataset} {problems : List Problem}, d.Built →
      readRows w kept i rows d = .ok (d', problems) → d'.Built := by
  -- induction on the rows, with position and dataset left open
  induction rows with
  | nil =>
      intro i d d' problems hd h
      obtain ⟨rfl, -⟩ := Prod.mk.inj (Except.ok.inj h)
      exact hd
  | cons cells rest ih =>
      intro i d d' problems hd h
      by_cases hdata : hasData kept cells = true
      · rw [readRows_cons_of_data w hdata] at h
        cases hseen : w.beforeRow i with
        | true =>
            rw [hseen] at h
            exact nomatch h
        | false =>
            rw [hseen, if_neg Bool.false_ne_true] at h
            cases hrest : readRows w kept (i + 1) rest (readRow (i + 2) cells kept d).1 with
            | error f =>
                rw [hrest] at h
                exact nomatch h
            | ok read =>
                rw [hrest] at h
                obtain ⟨rfl, -⟩ := Prod.mk.inj (Except.ok.inj h)
                exact ih (built_readRow (i + 2) cells kept hd) hrest
      · rw [readRows_cons_of_blank w hdata] at h
        obtain ⟨rfl, -⟩ := Prod.mk.inj (Except.ok.inj h)
        exact hd

/-! ## The intake -/

/-- The headers of a sheet that are kept, in their order, each with the column that it
    names. -/
def keptHeaders (columns : List ColumnInfo) (s : Sheet) : List Kept :=
  firstUses (matched columns (headers s))

/-- The rows of a sheet that are read: those after the first up to the first one without
    data under a kept header. -/
def body (columns : List ColumnInfo) (s : Sheet) : List (List String) :=
  (s.rows.drop 1).takeWhile (hasData (keptHeaders columns s))

/-- The kept headers choose columns of distinct names. -/
theorem distinct_keptHeaders (columns : List ColumnInfo) (s : Sheet) :
    Distinct (keptHeaders columns s) :=
  firstUses_distinct columns (headers s)

/-- The rows of a sheet are read into an empty dataset. -/
theorem readRows_sheet (w : Watch) (columns : List ColumnInfo) (s : Sheet) (table : String) :
    readRows w (keptHeaders columns s) 0 (s.rows.drop 1)
        (emptyDataset table (keptHeaders columns s))
      = if (List.range (body columns s).length).any w.beforeRow then .error .cancelled
        else
          .ok (datasetOf table (keptHeaders columns s) (rowValues 2 (body columns s)),
            rowProblems 2 (body columns s) (keptHeaders columns s)) := by
  have hdistinct := distinct_keptHeaders columns s
  rw [emptyDataset_eq table hdistinct, readRows_eq w table hdistinct, List.range_eq_range']
  rfl

/-- The first row of a sheet has data exactly if there are rows to read. -/
theorem isEmpty_body (columns : List ColumnInfo) (s : Sheet) :
    (body columns s).isEmpty
      = !(s.rows.drop 1).head?.any (hasData (keptHeaders columns s)) := by
  rw [body]
  cases s.rows.drop 1 with
  | nil => rfl
  | cons cells rest =>
      show _ = !hasData (keptHeaders columns s) cells
      rw [List.takeWhile_cons]
      cases hasData (keptHeaders columns s) cells <;> rfl

/-- Columns of one length need no cut. -/
theorem reconcile_of_length {d : Dataset} {n : Nat}
    (h : ∀ c ∈ d.columns, c.values.length = n) : reconcile d = (d, []) := by
  rw [reconcile, Dataset.truncationMessage?, Dataset.inconsistent_of_length h]
  rfl

theorem length_of_mem_datasetOf {table : String} {kept : List Kept} {first : Nat}
    {rows : List (List String)} {c : DataColumn}
    (hc : c ∈ (datasetOf table kept (rowValues first rows)).columns) :
    c.values.length = rows.length := by
  obtain ⟨k, -, rfl⟩ := List.mem_map.mp hc
  exact length_rowValues first rows k

/-- **AN INTAKE IN CLOSED FORM**: four checks, one look-out for a cancellation, and the report
    of what was read.  The columns have one length, so reconciling them changes nothing. -/
theorem run_eq (w : Watch) (s : Sheet) (columns : List ColumnInfo) (table : String) :
    run w s columns table
      = if columns.isEmpty then .error (.invalid "Column metadata cannot be empty.")
        else if allBlank table then .error (.invalid "Table name cannot be empty.")
        else if (headers s).isEmpty then .error (.invalid "No headers found in the grid.")
        else if (body columns s).isEmpty then
          .error (.validation
            ((headerProblems columns (select columns (headers s)) ++ [Problem.noRows]).map
              Problem.message))
        else if (List.range (body columns s).length).any w.beforeRow then .error .cancelled
        else
          .ok ⟨datasetOf table (keptHeaders columns s) (rowValues 2 (body columns s)),
            headerProblems columns (select columns (headers s))
              ++ rowProblems 2 (body columns s) (keptHeaders columns s)⟩ := by
  have hkept : (select columns (headers s)).kept = keptHeaders columns s := select_kept _ _
  have hreconcile : reconcile (datasetOf table (keptHeaders columns s)
      (rowValues 2 (body columns s))) = (_, []) :=
    reconcile_of_length fun _ => length_of_mem_datasetOf
  rw [run, isEmpty_body]
  dsimp only
  rw [hkept, readRows_sheet]
  -- the checks in their order, down to the rows themselves
  cases columns.isEmpty with
  | true => rfl
  | false =>
      cases allBlank table with
      | true => rfl
      | false =>
          cases (headers s).isEmpty with
          | true => rfl
          | false =>
              cases (s.rows.drop 1).head?.any (hasData (keptHeaders columns s)) with
              | false => rfl
              | true =>
                  cases (List.range (body columns s).length).any w.beforeRow with
                  | true => rfl
                  | false =>
                      show Except.ok (Report.mk (reconcile (datasetOf _ _ _)).1
                        (_ ++ _ ++ (reconcile (datasetOf _ _ _)).2)) = Except.ok _
                      rw [hreconcile, List.append_nil]

/-- **WHAT AN INTAKE GIVES**: at least one row was read, and the report has the
    values of the rows, uncut, and the problems with the headers and the rows. -/
theorem run_eq_ok {w : Watch} {s : Sheet} {columns : List ColumnInfo} {table : String}
    {r : Report} (h : run w s columns table = .ok r) :
    body columns s ≠ []
      ∧ readRows w (keptHeaders columns s) 0 (s.rows.drop 1)
          (emptyDataset table (keptHeaders columns s))
        = .ok (r.dataset, rowProblems 2 (body columns s) (keptHeaders columns s))
      ∧ r.dataset = datasetOf table (keptHeaders columns s) (rowValues 2 (body columns s))
      ∧ r.problems = headerProblems columns (select columns (headers s))
        ++ rowProblems 2 (body columns s) (keptHeaders columns s) := by
  rw [run_eq] at h
  split_ifs at h with _ _ _ hbody hseen
  obtain rfl := Except.ok.inj h
  refine ⟨fun hnil => hbody (by rw [hnil]; rfl), ?_, rfl, rfl⟩
  rw [readRows_sheet, if_neg hseen]

/-- The dataset of a report was built from the empty one. -/
theorem built_of_run {w : Watch} {s : Sheet} {columns : List ColumnInfo} {table : String}
    {r : Report} (h : run w s columns table = .ok r) : r.dataset.Built :=
  built_readRows (built_emptyDataset table _) (run_eq_ok h).2.1

end Gridbase.Intake
