import Gridbase.Gateway.Bulk
import Gridbase.Proofs.Dataset
import Gridbase.Proofs.Gateway.Checks
import Gridbase.Proofs.Statement.Completion
import Mathlib.Data.List.Forall2

/-! # Bulk insertion

    A dataset is inserted row by row, and a run can end at any row: the database refuses
    it, or cancellation is observed before it.  What is written by then is a PREFIX of the
    rows, in their order.

    * All checks come before the first row (`insertPlan`).
    * One row adds one row to the table, or none (`run_insertRow`).
    * A run over rows is such steps one after the other (`run_insertRows`), and ends in one
      of three ways (`RowsEnd`). -/

namespace Gridbase

open Gridbase.Text Gridbase.Session

namespace Gateway

/-! ## The columns that are written -/

/-- What is decided before the first row: the columns that are written, or the failure of
    a check. -/
def insertPlan (g : Gateway) (w : Watch) (d : Dataset) (db : Database) :
    Except Failure (List String) := do
  checkTable d.table
  checkpoint w.atStart
  g.checkAddress
  insertableColumns (generatedNames (← Catalog.liveColumns db d.table)) d.names

theorem writtenColumns_eq_ok {generated names columns : List String}
    (h : writtenColumns generated names = .ok columns) :
    columns = names.filter fun name => !generated.any (sameName name) := by
  induction names generalizing columns with
  | nil => exact (Except.ok.inj h).symm
  | cons name names ih =>
      rw [writtenColumns] at h
      cases hgenerated : generated.any (sameName name) with
      | true =>
          rw [hgenerated] at h
          rw [List.filter_cons_of_neg (by simp [hgenerated])]
          exact ih h
      | false =>
          rw [hgenerated] at h
          rw [List.filter_cons_of_pos (by simp [hgenerated])]
          obtain ⟨_, -, h⟩ := bind_eq_ok.mp h
          obtain ⟨rest, hrest, h⟩ := bind_eq_ok.mp h
          rw [← ih hrest]
          exact (Except.ok.inj h).symm

/-- A plan that was made: the table has a valid name, and there are columns to write, which
    are those that introspection does not report as generated. -/
theorem insertPlan_eq_ok {g : Gateway} {w : Watch} {d : Dataset} {db : Database}
    {columns : List String} (h : insertPlan g w d db = .ok columns) :
    Dialect.sqlite.isValidName d.table = true ∧ columns ≠ []
      ∧ ∃ infos, Catalog.liveColumns db d.table = .ok infos
        ∧ columns = d.names.filter fun name => !(generatedNames infos).any (sameName name) := by
  obtain ⟨_, htable, h⟩ := bind_eq_ok.mp h
  obtain ⟨_, -, h⟩ := bind_eq_ok.mp h
  obtain ⟨_, -, h⟩ := bind_eq_ok.mp h
  obtain ⟨infos, hinfos, h⟩ := bind_eq_ok.mp h
  obtain ⟨written, hwritten, h⟩ := bind_eq_ok.mp h
  obtain ⟨_, hsome, h⟩ := bind_eq_ok.mp h
  obtain rfl : written = columns := Except.ok.inj h
  refine ⟨checkTable_eq_ok.mp htable, ?_, infos, hinfos, writtenColumns_eq_ok hwritten⟩
  rintro rfl
  exact nomatch hsome

/-- **THE PLAN COMES FIRST**: rows are inserted only if every check before them
    succeeds.  The plan asks the database for the columns but writes nothing, so a run
    that stops there leaves the session as it was. -/
theorem run_insertDataset (g : Gateway) (w : Watch) (d : Dataset) (s : Session) :
    (g.insertDataset w d).run s
      = match insertPlan g w d s.database with
        | .ok columns => (insertRows w d.table columns 0 d.rows).run s
        | .error f => (.error f, s) := by
  have hcolumns : (columnsOf d.table).run s = (Catalog.liveColumns s.database d.table, s) :=
    run_require _ _
  -- the checks before the first look at the database, on both sides alike
  obtain ⟨checks, hrun, hplan⟩ : ∃ checks : Except Failure Unit,
      g.insertDataset w d = require checks >>= (fun _ => insertAll w d)
        ∧ insertPlan g w d s.database = checks >>= fun _ =>
          Catalog.liveColumns s.database d.table >>= fun infos =>
            insertableColumns (generatedNames infos) d.names := by
    refine ⟨do checkTable d.table; checkpoint w.atStart; g.checkAddress, ?_, ?_⟩
    · simp only [insertDataset, require_bind, bind_assoc]
    · simp only [insertPlan, bind_assoc]
  rw [hrun, hplan, run_require_bind]
  cases checks with
  | error f => rfl
  | ok u =>
      show (insertAll w d).run s = _
      rw [insertAll, run_bind, hcolumns]
      cases Catalog.liveColumns s.database d.table with
      | error f => rfl
      | ok infos =>
          show (require (insertableColumns (generatedNames infos) d.names) >>= _).run s
            = match insertableColumns (generatedNames infos) d.names with
              | .ok columns => (insertRows w d.table columns 0 d.rows).run s
              | .error f => (.error f, s)
          rw [run_require_bind]
          cases insertableColumns (generatedNames infos) d.names <;> rfl

/-! ## One row -/

/-- The entries that the insertion of a row writes: one for each column, with NULL where
    the row has no value. -/
def rowEntries (columns : List String) (row : Row) : List Entry :=
  columns.map fun c => ⟨c, (row.get? c).getD .null⟩

theorem insertEntries_rowInsert (t : Table) (table : String) {columns : List String}
    (h : columns ≠ []) (row : Row) :
    Database.insertEntries t (rowInsert table columns row) = rowEntries columns row := by
  have hempty : columns.isEmpty = false := List.isEmpty_eq_false_iff.mpr h
  show ((if columns.isEmpty then _ else columns).zip (columns.map _)).map _ = _
  rw [hempty, rowEntries, if_neg Bool.false_ne_true, ← List.map_prod_left_eq_zip, List.map_map]
  rfl

theorem separate_rowEntries {columns : List String}
    (h : columns.Pairwise fun a b => sameName a b = false) (row : Row) :
    Table.Separate (rowEntries columns row) := by
  rw [Table.Separate, rowEntries, List.pairwise_map]
  exact h

/-- A new row takes the values of a row in the given columns, each as its column stores
    it. -/
def TakesRow (t : Table) (columns : List String) (row : Row) (cells : Cells) : Prop :=
  ∀ c ∈ columns, t.Takes c ((row.get? c).getD .null) cells

section

variable {table : String} {columns : List String}

/-- **ONE ROW** is added to the table, or the database refuses it and stays as it is.
    There is no third way: a row is never written in part. -/
theorem run_insertRow (htable : Dialect.sqlite.isValidName table = true) (hne : columns ≠ [])
    (hdistinct : columns.Pairwise fun a b => sameName a b = false) {s : Session} {t : Table}
    (hreach : s.database.reachable? table = some t) (row : Row) :
    (∃ fault s', s.database.insert (rowInsert table columns row) = .error fault
        ∧ s'.database = s.database
        ∧ (send (.insert (rowInsert table columns row))).run s = (.error fault.toFailure, s'))
      ∨ ∃ cells s', s'.database.reachable? table = some (t.append cells)
        ∧ TakesRow t columns row cells
        ∧ (send (.insert (rowInsert table columns row))).run s = (.ok 1, s') := by
  have hbuild : (Statement.insert (rowInsert table columns row)).build .sqlite
      = .ok (Query.ofFragments .sqlite ((rowInsert table columns row).fragments table)) := by
    refine Insert.build_eq_ok rfl htable ?_ (List.length_map _).symm
    simpa [rowInsert] using hne
  have hsend := run_send hbuild s
  -- the database refuses, or takes the row with all its entries
  cases hinsert : s.database.execute (.insert (rowInsert table columns row)) with
  | error fault =>
      rw [hinsert] at hsend
      exact Or.inl ⟨fault, s.sending _ s.database, hinsert, rfl, hsend⟩
  | ok result =>
      obtain ⟨count, database⟩ := result
      rw [hinsert] at hsend
      obtain ⟨rfl, -, hknown, cells, hcells, hafter⟩ := Database.insert_eq_ok rfl hreach hinsert
      refine Or.inr ⟨cells, _, hafter, ?_, hsend⟩
      intro c hc
      rw [insertEntries_rowInsert t table hne] at hcells
      have hentry : (⟨c, (row.get? c).getD .null⟩ : Entry) ∈ rowEntries columns row :=
        List.mem_map.mpr ⟨c, hc, rfl⟩
      exact Table.newRow_takes hcells (separate_rowEntries hdistinct row) hentry (hknown c hc)

/-! ## Many rows -/

/-- How the insertion of some rows ends when `k` of them are written and the database is left
    as `db`; `observed` tells before which rows a request for cancellation is seen. -/
inductive RowsEnd (observed : Nat → Bool) (table : String) (columns : List String)
    (rows : List Row) (db : Database) : Nat → Except Failure Nat → Prop
  | done (unseen : ∀ i < rows.length, observed i = false) :
      RowsEnd observed table columns rows db rows.length (.ok rows.length)
  | cancelled {k : Nat} (hk : k < rows.length) (unseen : ∀ i < k, observed i = false)
      (seen : observed k = true) : RowsEnd observed table columns rows db k (.error .cancelled)
  | refused {k : Nat} {row : Row} {fault : StoreFault} (hrow : rows[k]? = some row)
      (unseen : ∀ i ≤ k, observed i = false)
      (refusal : db.insert (rowInsert table columns row) = .error fault) :
      RowsEnd observed table columns rows db k (.error fault.toFailure)

/-- A row that is written before the others goes with any end of theirs.  Positions move
    up by one, and so does what was observed before them. -/
theorem RowsEnd.cons {observed : Nat → Bool} {rows : List Row} {db : Database} {k : Nat}
    {result : Except Failure Nat}
    (h : RowsEnd (fun i => observed (i + 1)) table columns rows db k result)
    (hfirst : observed 0 = false) (row : Row) :
    RowsEnd observed table columns (row :: rows) db (k + 1) (result.map (1 + ·)) := by
  -- positions move up by one behind the new first row
  have hshift {n : Nat} (hrest : ∀ i < n, observed (i + 1) = false) :
      ∀ i < n + 1, observed i = false := by
    intro i hi
    cases i with
    | zero => exact hfirst
    | succ i => exact hrest i (Nat.lt_of_succ_lt_succ hi)
  -- each way of ending for the rest is the same way for the whole
  cases h with
  | done unseen =>
      have hdone : RowsEnd observed table columns (row :: rows) db (rows.length + 1)
          (.ok (rows.length + 1)) := .done (hshift unseen)
      show RowsEnd _ _ _ _ _ _ (.ok (1 + rows.length))
      rw [Nat.add_comm 1]
      exact hdone
  | cancelled hk unseen seen => exact .cancelled (Nat.succ_lt_succ hk) (hshift unseen) seen
  | refused hrow unseen refusal =>
      refine .refused hrow (fun i hi => ?_) refusal
      exact hshift (fun j hj => unseen j (Nat.le_of_lt_succ hj)) i (Nat.lt_succ_of_le hi)

/-- **A RUN OVER ROWS WRITES A PREFIX** of them, in their order, and leaves the rows that the
    table had. -/
theorem run_insertRows (htable : Dialect.sqlite.isValidName table = true) (hne : columns ≠ [])
    (hdistinct : columns.Pairwise fun a b => sameName a b = false) (w : Watch)
    (rows : List Row) :
    ∀ {i : Nat} {s s' : Session} {t : Table} {result : Except Failure Nat},
      s.database.reachable? table = some t →
      (insertRows w table columns i rows).run s = (result, s') →
      ∃ new, s'.database.reachable? table = some { t with rows := t.rows ++ new }
        ∧ List.Forall₂ (TakesRow t columns) (rows.take new.length) new
        ∧ RowsEnd (fun j => w.beforeRow (i + j)) table columns rows s'.database new.length
          result := by
  induction rows with
  | nil =>
      intro i s s' t result hreach hrun
      cases hrun
      refine ⟨[], ?_, .nil, .done fun _ h => nomatch h⟩
      rw [List.append_nil]
      exact hreach
  | cons row rows ih =>
      intro i s s' t result hreach hrun
      have hnone : some t = some { t with rows := t.rows ++ [] } := by rw [List.append_nil]
      rw [insertRows, run_require_bind] at hrun
      cases hseen : w.beforeRow i with
      | true =>
          rw [hseen] at hrun
          cases hrun
          exact ⟨[], hreach.trans hnone, .nil, .cancelled (Nat.zero_lt_succ _)
            (fun _ h => nomatch h) hseen⟩
      | false =>
          rw [hseen] at hrun
          replace hrun : (send (.insert (rowInsert table columns row)) >>= fun written =>
              insertRows w table columns (i + 1) rows >>= fun n => pure (written + n)).run s
            = (result, s') := hrun
          rw [run_bind] at hrun
          rcases run_insertRow htable hne hdistinct hreach row with
            ⟨fault, s₁, hrefusal, hsame, hsend⟩ | ⟨cells, s₁, hreach₁, htakes, hsend⟩
          · -- the row is refused, and nothing of it is written
            rw [hsend] at hrun
            cases hrun
            refine ⟨[], ?_, .nil, .refused rfl ?_ (hsame ▸ hrefusal)⟩
            · rw [hsame]
              exact hreach.trans hnone
            · intro j hj
              rw [Nat.le_zero.mp hj]
              exact hseen
          · -- the row is written, and the others come after it
            rw [hsend] at hrun
            dsimp only at hrun
            rw [run_bind] at hrun
            cases hrest : (insertRows w table columns (i + 1) rows).run s₁ with
            | mk rest s₂ =>
                obtain ⟨new, hafter, hnew, hend⟩ := ih hreach₁ hrest
                have hresult : (rest.map (1 + ·), s₂) = (result, s') := by
                  rw [hrest] at hrun
                  cases rest <;> exact hrun
                cases hresult
                refine ⟨cells :: new, ?_, .cons htakes hnew, ?_⟩
                · rw [hafter, Table.append, List.append_assoc]
                  rfl
                · refine RowsEnd.cons ?_ hseen row
                  simpa only [Nat.add_assoc, Nat.add_comm 1] using hend

end

/-! ## The whole insertion -/

/-- Introspection reports the column as generated.  It need not be, since introspection
    can be mistaken about it. -/
def reportsGenerated (db : Database) (table name : String) : Bool :=
  match Catalog.liveColumns db table with
  | .ok infos => (generatedNames infos).any (sameName name)
  | .error _ => false

/-- How the insertion of a dataset ends when `k` rows are written: before the first row, or
    in one of the ways in which inserting rows ends. -/
inductive InsertEnds (g : Gateway) (w : Watch) (d : Dataset) (before after : Database) :
    Nat → Except Failure Nat → Prop
  | unstarted {f : Failure} (h : insertPlan g w d before = .error f) :
      InsertEnds g w d before after 0 (.error f)
  | rows {columns : List String} {k : Nat} {result : Except Failure Nat}
      (h : insertPlan g w d before = .ok columns)
      (ends : RowsEnd w.beforeRow d.table columns d.rows after k result) :
      InsertEnds g w d before after k result

/-- Only a run over all rows gives a count, which is that of the rows. -/
theorem InsertEnds.count {g : Gateway} {w : Watch} {d : Dataset} {before after : Database}
    {k n : Nat} (h : InsertEnds g w d before after k (.ok n)) :
    n = d.rowCount ∧ k = d.rowCount := by
  cases h with
  | rows _ ends =>
      cases ends with
      | done _ => exact ⟨d.length_rows, d.length_rows⟩

/-- A table whose key is the row number, which the table makes where it is NULL. -/
def people : Table where
  name := "people"
  writtenName := "people"
  definition := " (id INTEGER PRIMARY KEY, name TEXT)"
  generated := false
  columns := [
    { name := "id", declaredType := "INTEGER", primaryKey := true },
    { name := "name", declaredType := "TEXT" }]
  rows := [[.integer 4, .text "Eve"]]

/-- A session with that table. -/
def peopleSession : Session where
  database := { tables := [people] }

end Gateway

end Gridbase
