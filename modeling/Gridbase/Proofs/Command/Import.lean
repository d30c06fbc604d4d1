import Gridbase.Command
import Gridbase.Proofs.Gateway.BulkInsert
import Gridbase.Proofs.Gateway.BulkUpsert
import Gridbase.Proofs.Gateway.Confined
import Gridbase.Proofs.Intake.Problems

/-! # Imports

    An import reads the file, learns the columns of the table, takes the rows in, and only
    then writes.  Nothing before the writing touches the session (`run_importRows`), and the
    writing is behind a gate: the report must be clean, or problems must be allowed
    (`run_writeReport`). -/

namespace Gridbase

open Gridbase.Text Gridbase.Session Gridbase.Gateway

namespace Command

variable {g : Gateway} {table : String} {grid : InputFile} {options : ImportOptions}
  {s s' : Session} {result : Except CommandFault Unit}

/-! ## Steps -/

/-- An action as a part of a command does what it does, and its failure is the cause of the
    command's. -/
theorem run_act {α : Type} (x : Action α) (s : Session) :
    (act x).run s
      = match x.run s with
        | (.ok a, s') => (.ok a, s')
        | (.error f, s') => (.error (.failed f), s') := by
  show (match x.run s with
    | (r, s') => (r.mapError CommandFault.failed, s')) = _
  rcases x.run s with ⟨f | a, s'⟩ <;> rfl

/-- A result computed without the session leaves it alone. -/
theorem run_settle {α : Type} (result : Except CommandFault α) (s : Session) :
    (settle result).run s = (result, s) := by
  cases result <;> rfl

/-- The columns of a table are learnt without a change. -/
theorem run_columnInfo (g : Gateway) (table : String) (s : Session) :
    (g.columnInfo table).run s
      = ((do checkTable table; g.checkAddress; Catalog.liveColumns s.database table), s) := by
  have hcolumns : (columnsOf table).run s = (Catalog.liveColumns s.database table, s) :=
    run_require _ _
  rw [columnInfo, run_require_bind]
  cases checkTable table with
  | error f => rfl
  | ok u =>
      show (require g.checkAddress >>= fun _ => columnsOf table).run s
        = ((g.checkAddress >>= fun _ => Catalog.liveColumns s.database table), s)
      rw [run_require_bind]
      cases g.checkAddress with
      | error f => rfl
      | ok v => exact hcolumns

/-! ## Before the writing -/

/-- What an import has before its intake: the rows of the file, and the columns of the
    table. -/
structure Reads (g : Gateway) (db : Database) (table : String) (grid : InputFile)
    (rows : List (List String)) (columns : List ColumnInfo) : Prop where
  file : grid.read Sheet.rowsOfJson? = .ok rows
  name : checkTable table = .ok ()
  connection : g.checkAddress = .ok ()
  columns : Catalog.liveColumns db table = .ok columns

variable {rows : List (List String)} {columns : List ColumnInfo}

theorem Reads.learnt (h : Reads g s.database table grid rows columns) :
    (g.columnInfo table).run s = (.ok columns, s) := by
  rw [run_columnInfo, h.name, h.connection, ← h.columns]
  rfl

/-- **NOTHING HAPPENS BEFORE THE REPORT**: an import fails and leaves the session alone, or it
    goes on to the writing with the report of the intake. -/
theorem run_importRows (g : Gateway) (table : String) (grid : InputFile)
    (options : ImportOptions) (s : Session) :
    (∃ fault, (importRows g table grid options).run s = (.error fault, s)
        ∧ ∀ rows columns, ¬ Reads g s.database table grid rows columns)
      ∨ ∃ rows columns, Reads g s.database table grid rows columns
        ∧ (importRows g table grid options).run s
          = match Intake.run .never (Sheet.ofRows rows) columns table with
            | .ok report => (writeReport g report options).run s
            | .error f => (.error (.failed f), s) := by
  rw [importRows, run_bind, run_settle]
  -- the three stages one after the other: the file, the columns, the reading of the sheet
  cases hfile : grid.read Sheet.rowsOfJson? with
  | error fault =>
      -- what fails in a stage is what `Reads` asks of it
      refine Or.inl ⟨fault, rfl, fun rows columns h => ?_⟩
      exact nomatch hfile.symm.trans h.file
  | ok rows =>
      dsimp only
      rw [run_bind, run_act, run_columnInfo]
      cases hlearnt : (do checkTable table; g.checkAddress
                          Catalog.liveColumns s.database table) with
      | error f =>
          refine Or.inl ⟨.failed f, rfl, fun rows' columns h => ?_⟩
          have hcolumns := h.learnt
          rw [run_columnInfo, hlearnt] at hcolumns
          exact nomatch congrArg Prod.fst hcolumns
      | ok columns =>
          obtain ⟨_, hname, h⟩ := bind_eq_ok.mp hlearnt
          obtain ⟨_, hconnection, hcolumns⟩ := bind_eq_ok.mp h
          refine Or.inr ⟨rows, columns, ⟨hfile, hname, hconnection, hcolumns⟩, ?_⟩
          dsimp only
          rw [run_bind, check, run_settle]
          cases Intake.run .never (Sheet.ofRows rows) columns table <;> rfl

/-- The rows and the columns are the only ones. -/
theorem Reads.unique {rows' : List (List String)} {columns' : List ColumnInfo} {db : Database}
    (h : Reads g db table grid rows columns) (h' : Reads g db table grid rows' columns') :
    rows = rows' ∧ columns = columns' :=
  ⟨Except.ok.inj (h.file.symm.trans h'.file), Except.ok.inj (h.columns.symm.trans h'.columns)⟩

/-- With the rows and the columns at hand, the report decides. -/
theorem run_importRows_of_reads (h : Reads g s.database table grid rows columns)
    (options : ImportOptions) :
    (importRows g table grid options).run s
      = match Intake.run .never (Sheet.ofRows rows) columns table with
        | .ok report => (writeReport g report options).run s
        | .error f => (.error (.failed f), s) := by
  rcases run_importRows g table grid options s with ⟨_, -, hnone⟩ | ⟨rows', columns', h', hrun⟩
  · exact absurd h (hnone rows columns)
  · obtain ⟨rfl, rfl⟩ := h.unique h'
    exact hrun

/-- A table whose columns were learnt can be reached. -/
theorem reachable_of_liveColumns {db : Database} (h : Catalog.liveColumns db table = .ok columns) :
    ∃ t, db.reachable? table = some t := by
  cases hreach : db.reachable? table with
  | some t => exact ⟨t, rfl⟩
  | none =>
      have hnone : Catalog.columns db table .catalog = .error (Catalog.notFound table) := by
        rw [Catalog.columns, hreach]
      rw [Catalog.liveColumns, hnone] at h
      exact nomatch h

/-! ## The gate -/

/-- The report opens the gate: it has no problems, or problems are allowed. -/
def Admitted (r : Intake.Report) (options : ImportOptions) : Prop :=
  r.problems = [] ∨ options.allowProblems = true

/-- The writing of a report that opens the gate: by the key if there is one, else row by
    row at the end of the table. -/
def writing (g : Gateway) (r : Intake.Report) (options : ImportOptions) : Action Unit :=
  match options.key with
  | some key => discard (g.upsertDataset .never r.dataset key)
  | none => discard (g.insertDataset .never r.dataset)

/-- **THE GATE**: a report with problems is refused with their number, unless they are
    allowed. -/
theorem writeReport_eq (g : Gateway) (r : Intake.Report) (options : ImportOptions) :
    (¬ Admitted r options ∧ writeReport g r options = throw (.refused r.problems.length))
      ∨ (Admitted r options ∧ writeReport g r options = act (writing g r options)) := by
  have hclean : r.isClean = true ↔ r.problems = [] := List.isEmpty_iff
  rw [writeReport, Admitted, ← hclean]
  cases r.isClean <;> cases options.allowProblems <;> cases hkey : options.key <;>
    simp [writing, hkey]

/-- The writing is confined to the table of the dataset. -/
theorem confined_writing (g : Gateway) (r : Intake.Report) (options : ImportOptions) :
    Confined r.dataset.table (writing g r options) := by
  rw [writing]
  split
  · exact confined_discard (confined_upsertDataset g .never r.dataset _)
  · exact confined_discard (confined_insertDataset g .never r.dataset)

/-! ## The import -/

/-- An intake that fails makes the import fail. -/
theorem run_importRows_of_failure (h : Reads g s.database table grid rows columns) {f : Failure}
    (hintake : Intake.run .never (Sheet.ofRows rows) columns table = .error f) :
    (importRows g table grid options).run s = (.error (.failed f), s) := by
  rw [run_importRows_of_reads h, hintake]

/-- A report that does not open the gate makes the import fail. -/
theorem run_importRows_of_problems (h : Reads g s.database table grid rows columns)
    {r : Intake.Report} (hintake : Intake.run .never (Sheet.ofRows rows) columns table = .ok r)
    (hclosed : ¬ Admitted r options) :
    (importRows g table grid options).run s = (.error (.refused r.problems.length), s) := by
  rw [run_importRows_of_reads h, hintake]
  dsimp only
  rcases writeReport_eq g r options with ⟨-, hrefused⟩ | ⟨hopen, -⟩
  · rw [hrefused]
    rfl
  · exact absurd hopen hclosed

/-- **AN IMPORT FAILS AND LEAVES THE SESSION**, or it is the writing of a report that opens the
    gate. -/
theorem importRows_cases (hrun : (importRows g table grid options).run s = (result, s')) :
    ((∃ fault, result = .error fault) ∧ s' = s)
      ∨ ∃ rows columns r, Reads g s.database table grid rows columns
        ∧ Intake.run .never (Sheet.ofRows rows) columns table = .ok r ∧ Admitted r options
        ∧ (act (writing g r options)).run s = (result, s') := by
  rcases run_importRows g table grid options s with ⟨fault, hfails, -⟩
    | ⟨rows, columns, hreads, hreport⟩
  · obtain ⟨rfl, rfl⟩ := Prod.mk.inj (hfails.symm.trans hrun)
    exact Or.inl ⟨⟨fault, rfl⟩, rfl⟩
  · cases hintake : Intake.run .never (Sheet.ofRows rows) columns table with
    | error f =>
        rw [run_importRows_of_failure hreads hintake] at hrun
        obtain ⟨rfl, rfl⟩ := Prod.mk.inj hrun
        exact Or.inl ⟨⟨_, rfl⟩, rfl⟩
    | ok r =>
        rw [hreport, hintake] at hrun
        dsimp only at hrun
        -- refused or let through, by the report alone
        rcases writeReport_eq g r options with ⟨-, hrefused⟩ | ⟨hopen, hwriting⟩
        · rw [hrefused] at hrun
          obtain ⟨rfl, rfl⟩ := Prod.mk.inj hrun
          exact Or.inl ⟨⟨_, rfl⟩, rfl⟩
        · rw [hwriting] at hrun
          exact Or.inr ⟨rows, columns, r, hreads, hintake, hopen, hrun⟩

theorem table_of_run {w : Watch} {sheet : Sheet} {r : Intake.Report}
    (h : Intake.run w sheet columns table = .ok r) : r.dataset.table = table := by
  obtain ⟨-, -, hdataset, -⟩ := Intake.run_eq_ok h
  rw [hdataset]
  rfl

/-- However an import ends, it changes no table of another name. -/
theorem sameBeside_importRows (hrun : (importRows g table grid options).run s = (result, s')) :
    Database.SameBeside table s.database s'.database := by
  rcases importRows_cases hrun with ⟨-, rfl⟩ | ⟨rows, columns, r, -, hintake, -, hwriting⟩
  · exact .refl ..
  · have hconfined := confined_writing g r options s
    rw [table_of_run hintake] at hconfined
    rw [run_act] at hwriting
    cases hrun : (writing g r options).run s with
    | mk written s₁ =>
        rw [hrun] at hwriting hconfined
        cases written <;> cases hwriting <;> exact hconfined

/-- A success of a bulk insertion adds a row for each row of the dataset.  Nothing else
    is known of the new rows here; the number of them is what the gate promises. -/
theorem insertDataset_adds_rows {d : Dataset} (hd : d.Built) {t : Table} {n : Nat}
    (hreach : s.database.reachable? d.table = some t)
    (hrun : (g.insertDataset .never d).run s = (.ok n, s')) :
    ∃ new, s'.database.reachable? d.table = some { t with rows := t.rows ++ new }
      ∧ new.length = d.rowCount := by
  rw [run_insertDataset] at hrun
  cases hplan : insertPlan g .never d s.database with
  | error f =>
      rw [hplan] at hrun
      cases hrun
  | ok columns =>
      rw [hplan] at hrun
      obtain ⟨htable, hne, infos, -, hcolumns⟩ := insertPlan_eq_ok hplan
      -- a built dataset has no column twice, and the columns written are some of its own
      have hdistinct : columns.Pairwise fun a b => sameName a b = false := by
        rw [hcolumns]
        exact hd.distinct.filter _
      obtain ⟨new, hafter, -, hend⟩ :=
        run_insertRows htable hne hdistinct .never d.rows hreach hrun
      simp only [Nat.zero_add] at hend
      exact ⟨new, hafter, (InsertEnds.rows hplan hend).count.2⟩

/-- A success without a key has inserted the dataset of the report.  The rows are those
    that were read, also where problems were allowed. -/
theorem importRows_adds_rows
    (hrun : (importRows g table grid options).run s = (.ok (), s')) (hkey : options.key = none) :
    ∃ rows columns r t new, Reads g s.database table grid rows columns
      ∧ Intake.run .never (Sheet.ofRows rows) columns table = .ok r
      ∧ s.database.reachable? table = some t
      ∧ s'.database.reachable? table = some { t with rows := t.rows ++ new }
      ∧ new.length = r.dataset.rowCount := by
  rcases importRows_cases hrun with ⟨⟨fault, hfault⟩, -⟩
    | ⟨rows, columns, r, hreads, hintake, -, hwriting⟩
  · exact nomatch hfault
  · obtain ⟨t, hreach⟩ := reachable_of_liveColumns hreads.columns
    -- without a key the writing is an insertion, whose count is dropped
    have hinserted : ∃ n, (g.insertDataset .never r.dataset).run s = (.ok n, s') := by
      rw [run_act, writing, hkey] at hwriting
      cases hrun : (discard (g.insertDataset .never r.dataset)).run s with
      | mk written s₁ =>
          rw [hrun] at hwriting
          cases written with
          | error f => cases hwriting
          | ok u =>
              cases hwriting
              exact yields_discard.mp hrun
    obtain ⟨n, hinserted⟩ := hinserted
    rw [← table_of_run hintake] at hreach ⊢
    obtain ⟨new, hafter, hlength⟩ :=
      insertDataset_adds_rows (Intake.built_of_run hintake) hreach hinserted
    exact ⟨rows, columns, r, t, new, by rwa [table_of_run hintake],
      by rwa [table_of_run hintake], hreach, hafter, hlength⟩

/-- **THE IMPORT GATE.**  An import that changes the database has a report that is clean or
    whose problems are allowed; an intake that fails, or that has problems when none are allowed,
    fails the import and leaves the session as it was.  A success without a key adds one row to
    the table for each row of the report's dataset.  However the import ends, it changes no other
    table. -/
theorem importRows_gate (g : Gateway) (table : String) (grid : InputFile)
    (options : ImportOptions) (s s' : Session) (result : Except CommandFault Unit)
    (hrun : (importRows g table grid options).run s = (result, s')) :
    (s'.database ≠ s.database → ∃ rows columns r, Reads g s.database table grid rows columns
        ∧ Intake.run .never (Sheet.ofRows rows) columns table = .ok r
        ∧ (r.problems = [] ∨ options.allowProblems = true))
      ∧ (∀ rows columns, Reads g s.database table grid rows columns →
          (∀ f, Intake.run .never (Sheet.ofRows rows) columns table = .error f →
            result = .error (.failed f) ∧ s' = s)
          ∧ ∀ r, Intake.run .never (Sheet.ofRows rows) columns table = .ok r →
            r.problems ≠ [] → options.allowProblems = false →
            result = .error (.refused r.problems.length) ∧ s' = s)
      ∧ (result = .ok () → options.key = none → ∃ rows columns r t new,
          Reads g s.database table grid rows columns
            ∧ Intake.run .never (Sheet.ofRows rows) columns table = .ok r
            ∧ s.database.reachable? table = some t
            ∧ s'.database.reachable? table = some { t with rows := t.rows ++ new }
            ∧ new.length = r.dataset.rowCount)
      ∧ Database.SameBeside table s.database s'.database := by
  refine ⟨fun hchanged => ?_, fun rows columns hreads => ⟨fun f hintake => ?_, ?_⟩, ?_,
    sameBeside_importRows hrun⟩
  · -- a changed database has gone through the gate: nothing else reaches the writing
    rcases importRows_cases hrun with ⟨-, rfl⟩ | ⟨rows, columns, r, hreads, hintake, hopen, -⟩
    · exact absurd rfl hchanged
    · exact ⟨rows, columns, r, hreads, hintake, hopen⟩
  · exact Prod.mk.inj (hrun.symm.trans (run_importRows_of_failure hreads hintake))
  · intro r hintake hproblems hstrict
    -- neither of the two ways through the gate is open
    have hclosed : ¬ Admitted r options := by
      rintro (hclean | hallowed)
      · exact hproblems hclean
      · exact nomatch hstrict.symm.trans hallowed
    exact Prod.mk.inj (hrun.symm.trans (run_importRows_of_problems hreads hintake hclosed))
  · rintro rfl hkey
    exact importRows_adds_rows hrun hkey

/-- The rows of a delivery; the second amount is no number. -/
def deliveryRows : List (List String) := [["code", "amount"], ["a", "1"], ["b", "x"]]

/-- The file of the delivery. -/
def deliveryFile : InputFile where
  path := "delivery.json"
  text := some "[[\"code\", \"amount\"], [\"a\", \"1\"], [\"b\", \"x\"]]"

/-- The columns of the stock. -/
def stockInfos : List ColumnInfo := [
  { name := "code", dataType := "TEXT", isPrimaryKey := true },
  { name := "amount", dataType := "INTEGER", isNullable := true }]

/-- What is read of the delivery. -/
def deliveryReport : Intake.Report where
  dataset := ⟨"stock", [⟨"code", [.text "a", .text "b"]⟩, ⟨"amount", [.int 1, .null]⟩]⟩
  problems := [.rejectedCell ⟨"amount", 3, "x"⟩ .notInteger]

/-- The delivery is refused for its one problem, and adds two rows if problems are allowed. -/
theorem importRows_gate_delivery :
    (importRows ⟨.ok "memory"⟩ "stock" deliveryFile {}).run stockSession
        = (.error (.refused 1), stockSession)
      ∧ ∃ s' new, (importRows ⟨.ok "memory"⟩ "stock" deliveryFile { allowProblems := true }).run
            stockSession = (.ok (), s')
          ∧ s'.database.reachable? "stock" = some { stock with rows := stock.rows ++ new }
          ∧ new.length = 2 := by
  have hreads : Reads ⟨.ok "memory"⟩ stockSession.database "stock" deliveryFile deliveryRows
      stockInfos := ⟨by decide +kernel, by decide +kernel, by decide +kernel, by decide +kernel⟩
  have hintake : Intake.run .never (Sheet.ofRows deliveryRows) stockInfos "stock"
      = .ok deliveryReport := by decide +kernel
  constructor
  · cases hrun : (importRows ⟨.ok "memory"⟩ "stock" deliveryFile {}).run stockSession with
    | mk result s' =>
        obtain ⟨-, hgate, -⟩ := importRows_gate _ _ _ _ _ _ _ hrun
        obtain ⟨rfl, rfl⟩ := (hgate _ _ hreads).2 deliveryReport hintake (List.cons_ne_nil _ _) rfl
        rfl
  · have hresult : ((importRows ⟨.ok "memory"⟩ "stock" deliveryFile { allowProblems := true }).run
        stockSession).1 = .ok () := by decide +kernel
    cases hrun : (importRows ⟨.ok "memory"⟩ "stock" deliveryFile { allowProblems := true }).run
        stockSession with
    | mk result s' =>
        rw [hrun] at hresult
        obtain rfl : result = .ok () := hresult
        obtain ⟨-, -, hadds, -⟩ := importRows_gate _ _ _ _ _ _ _ hrun
        obtain ⟨rows, columns, r, t, new, hreads', hintake', hreach, hafter, hlength⟩ :=
          hadds rfl rfl
        obtain ⟨rfl, rfl⟩ := hreads.unique hreads'
        obtain rfl : deliveryReport = r := Except.ok.inj (hintake.symm.trans hintake')
        have hstock : stockSession.database.reachable? "stock" = some stock := by decide +kernel
        obtain rfl : stock = t := Option.some.inj (hstock.symm.trans hreach)
        exact ⟨s', new, rfl, hafter, hlength⟩

end Command

end Gridbase
