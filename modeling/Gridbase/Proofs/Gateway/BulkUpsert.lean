import Gridbase.Gateway.Bulk
import Gridbase.Proofs.Dataset
import Gridbase.Proofs.Gateway.Put

/-! # Bulk upsert

    Putting the rows of a dataset under their keys over one connection REFINES putting them
    one by one, each by an operation of its own.

    * The checks that an operation makes on a row hold for every row of a dataset whose names
      are valid, so only those on the table and the connection are left (`upsertChecks_row`).
    * One row after the other, both make the same steps and count the same outcomes
      (`putRows_eq`).
    * A step that inserts a row makes the table longer by one, and one that updates does not
      (`put_grows`); so a run makes it longer by the rows that it has inserted
      (`upsertEach_grows`). -/

namespace Gridbase

open Gridbase.Text Gridbase.Session

/-! ## Counting -/

namespace Gateway

/-- The counts of some outcomes, in whatever order they came. -/
def Tally.ofOutcomes (outcomes : List Upserted) : Tally where
  inserted := outcomes.count .inserted
  updated := outcomes.count .updated

theorem Tally.foldl_count (outcomes : List Upserted) (t : Tally) :
    outcomes.foldl Tally.count t
      = ⟨t.inserted + outcomes.count .inserted, t.updated + outcomes.count .updated⟩ := by
  induction outcomes generalizing t with
  | nil => rfl
  | cons outcome outcomes ih =>
      rw [List.foldl_cons, ih]
      cases outcome <;> simp [Tally.count, Nat.add_assoc, Nat.add_comm 1]

/-- Every outcome is one of the two. -/
theorem Tally.total_ofOutcomes (outcomes : List Upserted) :
    (ofOutcomes outcomes).inserted + (ofOutcomes outcomes).updated = outcomes.length := by
  show outcomes.count .inserted + outcomes.count .updated = _
  induction outcomes with
  | nil => rfl
  | cons outcome outcomes ih =>
      cases outcome <;> simp <;> omega

/-! ## Rows one by one -/

/-- Puts rows under their keys, each by an operation of its own, and stops at the first that
    fails. -/
def upsertEach (g : Gateway) (table key : String) : List Row → Action (List Upserted)
  | [] => return []
  | row :: rest => do
      let outcome ← g.upsert table row key
      return outcome :: (← upsertEach g table key rest)

variable {g : Gateway} {table key : String} {row : Row} {s s' : Session}

/-- **THE SAME STEPS** are made over one connection, if cancellation is not observed and the
    checks on every row succeed. -/
theorem putRows_eq {w : Watch} {rows : List Row}
    (hchecks : ∀ row ∈ rows, upsertChecks g table row key = .ok ()) :
    ∀ {i : Nat}, (∀ j < rows.length, w.beforeRow (i + j) = false) → ∀ tally : Tally,
      putRows w table key i rows tally
        = (fun outcomes => outcomes.foldl Tally.count tally) <$> upsertEach g table key rows := by
  -- induction on the rows, with position and tally left open
  induction rows with
  | nil =>
      intro i _ tally
      rfl
  | cons row rows ih =>
      intro i hunseen tally
      have hfirst : w.beforeRow i = false := hunseen 0 (Nat.zero_lt_succ _)
      have hrest : ∀ j < rows.length, w.beforeRow (i + 1 + j) = false := by
        intro j hj
        rw [Nat.add_assoc, Nat.add_comm 1]
        exact hunseen (j + 1) (Nat.succ_lt_succ hj)
      -- the checks of a single upsert pass for every row, so that only the putting is left
      have hput : g.upsert table row key = put table row key := by
        rw [upsert_eq, hchecks row (List.mem_cons_self ..)]
        rfl
      rw [putRows, hfirst, upsertEach, hput, map_bind]
      show (put table row key >>= fun outcome =>
        putRows w table key (i + 1) rows (tally.count outcome)) = _
      refine congrArg (put table row key >>= ·) (funext fun outcome => ?_)
      rw [ih (fun row hrow => hchecks row (List.mem_cons_of_mem _ hrow)) hrest, map_bind]
      simp only [map_pure, bind_pure_comp, List.foldl_cons]

/-! ## Checks -/

/-- **FOR A ROW OF A DATASET** of valid names, only the checks on the table and on the
    connection are left. -/
theorem upsertChecks_row (g : Gateway) {d : Dataset} (hd : d.Built)
    (hnames : ∀ name ∈ d.names, Dialect.sqlite.isValidName name = true)
    (hvalid : Dialect.sqlite.isValidName key = true) (hrow : row ∈ d.rows) (hne : d.names ≠ []) :
    upsertChecks g table row key = (do checkTable table; g.checkAddress) := by
  have hsame := Dataset.names_of_mem hd hrow
  have hentries : row.entries ≠ [] := by
    intro hnil
    rw [Row.names, hnil] at hsame
    exact hne hsame.symm
  have hrowCheck : checkRow row = .ok () := checkRow_eq_ok.mpr ⟨hentries, hsame ▸ hnames⟩
  rw [upsertChecks, hrowCheck, checkColumn_eq_ok.mpr hvalid]
  rfl

/-- What is decided before the first row.  None of it depends on the database. -/
def upsertPlan (g : Gateway) (w : Watch) (d : Dataset) (key : String) : Except Failure Unit := do
  checkTable d.table
  checkColumn key
  checkKey d key
  checkColumns d.names
  checkpoint w.atStart
  g.checkAddress

/-- A bulk upsert is a run over the rows, once its checks have passed. -/
theorem upsertDataset_eq_plan (g : Gateway) (w : Watch) (d : Dataset) (key : String) :
    g.upsertDataset w d key
      = require (upsertPlan g w d key) >>= fun _ => putRows w d.table key 0 d.rows {} := by
  simp only [upsertDataset, upsertPlan, require_bind, bind_assoc]

/-- The checks of a bulk upsert, if the names of the dataset are valid and the key is one of
    them. -/
theorem upsertDataset_eq (g : Gateway) {w : Watch} {d : Dataset}
    (hnames : ∀ name ∈ d.names, Dialect.sqlite.isValidName name = true)
    (hvalid : Dialect.sqlite.isValidName key = true) (hkey : d.hasColumn key = true)
    (hstart : w.atStart = false) :
    g.upsertDataset w d key
      = require (do checkTable d.table; g.checkAddress) >>= fun _ =>
        putRows w d.table key 0 d.rows {} := by
  have hkeyCheck : checkKey d key = .ok () := if_pos hkey
  have hcheckpoint : checkpoint w.atStart = .ok () := if_neg (by simp [hstart])
  rw [upsertDataset, checkColumn_eq_ok.mpr hvalid, hkeyCheck, checkColumns_eq_ok.mpr hnames,
    hcheckpoint]
  simp only [require_bind, bind_assoc]
  rfl

end Gateway

/-! ## Growth -/

/-- A step makes the table longer by the row that it inserts. -/
theorem Database.put_grows {db db' : Database} {table key : String} {row : Row} {id : Value}
    {t : Table} {outcome : Upserted} (hrow : row.entries ≠ [])
    (hreach : db.reachable? table = some t)
    (h : db.put table key row id = .ok (outcome, db')) :
    ∃ rows, db'.reachable? table = some { t with rows }
      ∧ rows.length = t.rows.length + [outcome].count .inserted := by
  obtain ⟨t₁, terms, hreach₁, -, -, hstep⟩ := put_eq_ok hrow h
  obtain rfl : t = t₁ := Option.some.inj (hreach.symm.trans hreach₁)
  cases hstep with
  | inserted none new after => exact ⟨_, after, List.length_append⟩
  | @updated rows found changed =>
      refine ⟨rows, reachable?_withRows hreach rows, ?_⟩
      rw [Table.updateRows_eq_map changed, List.reverse_nil, List.nil_append, List.length_map]
      rfl

namespace Gateway

variable {g : Gateway} {table key : String} {s s' : Session} {outcomes : List Upserted}

theorem length_of_upsertEach {rows : List Row}
    (h : Yields (g.upsertEach table key rows) s outcomes s') : outcomes.length = rows.length := by
  induction rows generalizing s outcomes with
  | nil =>
      obtain ⟨rfl, -⟩ := yields_pure.mp h
      rfl
  | cons row rows ih =>
      obtain ⟨outcome, s₁, -, h⟩ := yields_bind.mp h
      obtain ⟨rest, s₂, hrest, hpure⟩ := yields_bind.mp h
      obtain ⟨rfl, rfl⟩ := yields_pure.mp hpure
      rw [List.length_cons, ih hrest]
      rfl

/-- **A RUN MAKES THE TABLE LONGER** by the rows that it inserts.  A row that is updated
    adds none, and rows that fail end the run. -/
theorem upsertEach_grows {rows : List Row} {t : Table}
    (h : Yields (g.upsertEach table key rows) s outcomes s')
    (hreach : s.database.reachable? table = some t) :
    ∃ after, s'.database.reachable? table = some { t with rows := after }
      ∧ after.length = t.rows.length + outcomes.count .inserted := by
  -- induction on the rows, each of which grows the table by one or not at all
  induction rows generalizing s t outcomes with
  | nil =>
      obtain ⟨rfl, rfl⟩ := yields_pure.mp h
      exact ⟨t.rows, hreach, rfl⟩
  | cons row rows ih =>
      obtain ⟨outcome, s₁, hupsert, h⟩ := yields_bind.mp h
      obtain ⟨rest, s₂, hrest, hpure⟩ := yields_bind.mp h
      obtain ⟨rfl, rfl⟩ := yields_pure.mp hpure
      obtain ⟨-, id, hget, hput⟩ := upsert_eq_ok hupsert
      obtain ⟨rows₁, hreach₁, hlength₁⟩ :=
        Database.put_grows (Row.entries_ne_nil hget) hreach hput
      obtain ⟨after, hafter, hlength⟩ := ih hrest hreach₁
      refine ⟨after, hafter, ?_⟩
      rw [hlength, hlength₁, Nat.add_assoc, ← List.count_append]
      rfl

/-! ## The whole operation -/

/-- **BULK UPSERT REFINES UPSERTS ROW BY ROW.**  On every session it gives the counts of
    their outcomes or their first failure, and leaves the session that they leave; its counts
    add up to the number of rows, and the table grows by the rows inserted.  Without rows
    there is no upsert to fail, so then the table and the connection have to be good. -/
theorem upsertDataset_refines (g : Gateway) {w : Watch} {d : Dataset} (hd : d.Built)
    {key : String} (hnames : ∀ name ∈ d.names, Dialect.sqlite.isValidName name = true)
    (hkey : d.hasColumn key = true) (hstart : w.atStart = false)
    (hrows : ∀ i < d.rowCount, w.beforeRow i = false)
    (hopen : d.rowCount ≠ 0 ∨ (do checkTable d.table; g.checkAddress) = .ok ()) :
    g.upsertDataset w d key = Tally.ofOutcomes <$> g.upsertEach d.table key d.rows
      ∧ ∀ s s' tally, (g.upsertDataset w d key).run s = (.ok tally, s') →
        tally.inserted + tally.updated = d.rowCount
          ∧ ∀ t, s.database.reachable? d.table = some t →
            ∃ rows, s'.database.reachable? d.table = some { t with rows }
              ∧ rows.length = t.rows.length + tally.inserted := by
  obtain ⟨c, hc, hname⟩ := List.any_eq_true.mp hkey
  have hmem : c.name ∈ d.names := List.mem_map_of_mem hc
  have hvalid : Dialect.sqlite.isValidName key = true := by
    rw [Dialect.isValidName, ← Identifier.isValid_congr hname]
    exact hnames _ hmem
  have hchecks : ∀ row ∈ d.rows, upsertChecks g d.table row key
      = (do checkTable d.table; g.checkAddress) :=
    fun row hrow => upsertChecks_row g hd hnames hvalid hrow (List.ne_nil_of_mem hmem)
  have hsame : g.upsertDataset w d key
      = Tally.ofOutcomes <$> g.upsertEach d.table key d.rows := by
    rw [upsertDataset_eq g hnames hvalid hkey hstart]
    cases hresult : (do checkTable d.table; g.checkAddress) with
    | ok u =>
        have hunseen : ∀ j < d.rows.length, w.beforeRow (0 + j) = false := by
          rw [Dataset.length_rows]
          simpa using hrows
        have hcount : (fun outcomes => outcomes.foldl Tally.count {}) = Tally.ofOutcomes := by
          funext outcomes
          simp [Tally.foldl_count, Tally.ofOutcomes]
        show putRows w d.table key 0 d.rows {} = _
        rw [putRows_eq (fun row hrow => (hchecks row hrow).trans hresult) hunseen, hcount]
    | error f =>
        -- the first row fails in the same way
        cases hfirst : d.rows with
        | nil =>
            have hzero : d.rowCount = 0 := by rw [← d.length_rows, hfirst]; rfl
            rcases hopen with hsome | hok
            · exact absurd hzero hsome
            · exact nomatch hresult.symm.trans hok
        | cons row rest =>
            rw [upsertEach, upsert_eq, hchecks row (hfirst ▸ List.mem_cons_self ..), hresult]
            rfl
  refine ⟨hsame, fun s s' tally hrun => ?_⟩
  rw [hsame] at hrun
  obtain ⟨outcomes, hyields, rfl⟩ := yields_map.mp hrun
  constructor
  · rw [Tally.total_ofOutcomes, length_of_upsertEach hyields, Dataset.length_rows]
  · exact fun t hreach => upsertEach_grows hyields hreach

/-- A table of amounts under their codes. -/
def stock : Table where
  name := "stock"
  writtenName := "stock"
  definition := " (code TEXT PRIMARY KEY, amount INTEGER)"
  generated := false
  columns := [
    { name := "code", declaredType := "TEXT", primaryKey := true },
    { name := "amount", declaredType := "INTEGER" }]

/-- A session with that table. -/
def stockSession : Session where
  database := { tables := [stock] }

/-- Two rows of one key.  Its column is spelled otherwise than that of the table. -/
def deliveries : Dataset :=
  ((Dataset.empty "stock").pushColumn "Code" [.text "a", .text "a"]).pushColumn "amount"
    [.int 1, .int 2]

/-- The second row finds the key that the first has inserted.  So one row is left of the
    two, and both counts are one. -/
theorem deliveries_upsertDataset :
    ∃ s' rows, (upsertDataset ⟨.ok "memory"⟩ .never deliveries "code").run stockSession
        = (.ok ⟨1, 1⟩, s')
      ∧ (Tally.ofOutcomes <$> upsertEach ⟨.ok "memory"⟩ "stock" "code" deliveries.rows).run
        stockSession = (.ok ⟨1, 1⟩, s')
      ∧ s'.database.reachable? "stock" = some { stock with rows }
      ∧ rows.length = 1 := by
  have hbuilt : deliveries.Built := .pushColumn (.pushColumn (.empty _) _ _) _ _
  have hkey : deliveries.hasColumn "code" = true := by decide +kernel
  obtain ⟨hsame, htotal⟩ := upsertDataset_refines ⟨.ok "memory"⟩ (w := .never) hbuilt
    (by decide +kernel) hkey rfl (fun _ _ => rfl) (Or.inl (by decide +kernel))
  have hresult : ((upsertDataset ⟨.ok "memory"⟩ .never deliveries "code").run stockSession).1
      = .ok ⟨1, 1⟩ := by decide +kernel
  cases hrun : (upsertDataset ⟨.ok "memory"⟩ .never deliveries "code").run stockSession with
  | mk result s' =>
      rw [hrun] at hresult
      obtain rfl : result = .ok ⟨1, 1⟩ := hresult
      obtain ⟨rows, hreach, hlength⟩ := (htotal _ _ _ hrun).2 stock (by decide +kernel)
      refine ⟨s', rows, rfl, ?_, hreach, hlength⟩
      rw [← hrun, hsame]
      rfl

/-- Without rows a bulk upsert fails for a name that no upsert is made with.  The name
    of the table is checked before the first row; a run over no rows checks nothing. -/
theorem upsertDataset_not_without_rows :
    ¬ ∀ (g : Gateway) (d : Dataset) (key : String) (s : Session), d.Built →
        (∀ name ∈ d.names, Dialect.sqlite.isValidName name = true) → d.hasColumn key = true →
        (g.upsertDataset .never d key).run s
          = (Tally.ofOutcomes <$> g.upsertEach d.table key d.rows).run s := by
  intro hclaim
  have hsame := hclaim ⟨.ok "memory"⟩ ((Dataset.empty "bad name").pushColumn "id" []) "id"
    stockSession (.pushColumn (.empty _) _ _) (by decide +kernel) (by decide +kernel)
  exact absurd (congrArg Prod.fst hsame) (by decide +kernel)

end Gateway

end Gridbase
