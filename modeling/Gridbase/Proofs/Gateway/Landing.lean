import Gridbase.Proofs.Gateway.BulkUpsert
import Gridbase.Proofs.Gateway.Upsert
import Gridbase.Proofs.Store.Keys

/-! # Where rows land

    A row that is put under its key lands on the rows that the key finds, or at the end of the
    table if it finds none.  Positions are kept for good, so it can be asked whether two rows of
    a run land at one position.

    * A step leaves the key, as its column stores it, where the row lands, and every other row as
      it was (`put_lands`).
    * A run over rows leaves at every position a key that is equal to the one before
      (`putAll_keeps_key`), so a key that landed stays where it is (`keeps_landed`).
    * So rows that land at one position have keys that are stored as equals, and none of them is
      NULL (`same_of_lands`). -/

namespace Gridbase

open Gridbase.Text Gridbase.Session Gateway

/-! ## Steps -/

/-- A row that selects some rows lands at the position: that of a selected row, or the end if
    none is selected. -/
def Table.Lands (t : Table) (selected : Cells → Bool) (p : Nat) : Prop :=
  (∃ cells, t.rows[p]? = some cells ∧ selected cells = true)
    ∨ (∀ cells ∈ t.rows, selected cells = false) ∧ p = t.rows.length

section

variable {t : Table} {key : String} {row : Row} {i : Nat} {c : StoredColumn} {v : Value}
  (hkey : t.position? key = some i) (hcolumn : t.columns[i]? = some c)
  (hget : row.get? key = some v)

include hkey hcolumn hget

/-- The key of a row is written as its column stores it. -/
theorem Table.written?_of_get : written? row.entries c = some (c.affinity.store (.ofValue v)) := by
  obtain ⟨c', hc', hname⟩ := column_of_position? hkey
  obtain rfl : c = c' := Option.some.inj (hcolumn.symm.trans hc')
  rw [written?_eq, Row.get?_congr hname, hget, Option.map_some]

/-- A new row has its key, unless that is the row number and left to the table. -/
theorem Table.newRow_key (hnumber : t.rowNumber? = some i → Stored.ofValue v ≠ .null)
    {lastUsed : Int} {cells : Cells} (h : t.newRow lastUsed row.entries = .ok cells) :
    cells[i]? = some (c.affinity.store (.ofValue v)) := by
  have hassembled : (assemble t.columns row.entries)[i]? = _ := getElem?_assemble hcolumn
  rw [written?_of_get hkey hcolumn hget, Option.getD_some] at hassembled
  rcases numbered_eq_ok (newRow_eq_ok h).1 with rfl | ⟨j, n, hj, hnull, rfl⟩
  · exact hassembled
  · have hij : j ≠ i := by
      rintro rfl
      rw [cellAt, hassembled] at hnull
      exact hnumber hj (Affinity.store_eq_null.mp hnull)
    rw [List.getElem?_set_ne hij, hassembled]

/-- A changed row has its key. -/
theorem Table.assigned_key {cells : Cells} (hcell : cellAt cells i ≠ .null) :
    (assigned t.columns row.entries cells)[i]? = some (c.affinity.store (.ofValue v)) := by
  cases hx : cells[i]? with
  | none =>
      rw [cellAt, hx] at hcell
      exact absurd rfl hcell
  | some x => exact getElem?_assigned_written hcolumn (written?_of_get hkey hcolumn hget) hx

end

namespace Database

variable {table key : String} {i : Nat} {c : StoredColumn}

/-- **A STEP** leaves the key where the row lands, and the rows that it does not select as they
    were. -/
theorem put_lands {db db' : Database} {t : Table} {row : Row} {v : Value} {outcome : Upserted}
    (hkey : t.position? key = some i) (hcolumn : t.columns[i]? = some c)
    (hget : row.get? key = some v) (hnumber : t.rowNumber? = some i → Stored.ofValue v ≠ .null)
    (hreach : db.reachable? table = some t) (h : db.put table key row v = .ok (outcome, db')) :
    ∃ (terms : List Search.Term) (rows : List Cells),
      Search.terms t [Condition.is key v] = .ok terms
      ∧ db'.reachable? table = some { t with rows }
      ∧ (∀ (p : Nat) (cells : Cells), t.rows[p]? = some cells →
        Search.selects terms cells = false → rows[p]? = some cells)
      ∧ ∀ p, t.Lands (Search.selects terms) p → ∃ cells : Cells, rows[p]? = some cells
        ∧ cells[i]? = some (c.affinity.store (.ofValue v)) := by
  obtain ⟨t₁, terms, hreach₁, hterms, -, hstep⟩ := put_eq_ok (Row.entries_ne_nil hget) h
  obtain rfl : t = t₁ := Option.some.inj (hreach.symm.trans hreach₁)
  refine ⟨terms, ?_⟩
  -- no row had the key and one was added, or some had it and were changed
  cases hstep with
  | @inserted cells _ none new after =>
      refine ⟨_, hterms, after, fun p old hold _ => ?_, ?_⟩
      · have hp := (List.getElem?_eq_some_iff.mp hold).1
        rw [List.getElem?_append_left hp, hold]
      · rintro p (⟨old, hold, hselected⟩ | ⟨-, rfl⟩)
        · exact absurd ((none old (List.mem_of_getElem? hold)).symm.trans hselected)
            Bool.false_ne_true
        · exact ⟨cells, List.getElem?_concat_length,
            Table.newRow_key hkey hcolumn hget hnumber new⟩
  | @updated rows found changed =>
      -- an update maps over the rows, so that positions stay
      have hrows : ∀ (p : Nat) (cells : Cells), t.rows[p]? = some cells → rows[p]?
          = some (if Search.selects terms cells then Table.assigned t.columns row.entries cells
            else cells) := by
        intro p cells hcells
        rw [Table.updateRows_eq_map changed, List.reverse_nil, List.nil_append,
          List.getElem?_map, hcells]
        rfl
      refine ⟨rows, hterms, reachable?_withRows hreach rows, fun p cells hcells hother => ?_, ?_⟩
      · rw [hrows p cells hcells, hother]
        rfl
      · rintro p (⟨cells, hcells, hselected⟩ | ⟨hnone, -⟩)
        · refine ⟨_, hrows p cells hcells, ?_⟩
          rw [if_pos hselected]
          exact Table.assigned_key hkey hcolumn hget
            ((Search.selects_is hkey hcolumn hterms cells).mp hselected).1
        · obtain ⟨cells, hcells, hselected⟩ := found
          exact absurd ((hnone cells hcells).symm.trans hselected) Bool.false_ne_true

/-! ## Runs -/

/-- Rows put under their keys one after the other, in a database alone: the texts that a
    session logs are left out. -/
def putAll (table key : String) : Database → List Row → Except StoreFault Database
  | db, [] => .ok db
  | db, row :: rows => do
      let (_, db) ← db.put table key row ((row.get? key).getD .null)
      putAll table key db rows

theorem putAll_cons {db db' : Database} {row : Row} {rows : List Row} :
    putAll table key db (row :: rows) = .ok db'
      ↔ ∃ outcome db₁, db.put table key row ((row.get? key).getD .null) = .ok (outcome, db₁)
        ∧ putAll table key db₁ rows = .ok db' := by
  rw [putAll, bind_eq_ok]
  exact ⟨fun ⟨r, hput, hrest⟩ => ⟨r.1, r.2, hput, hrest⟩,
    fun ⟨outcome, db₁, hput, hrest⟩ => ⟨(outcome, db₁), hput, hrest⟩⟩

/-- Rows are put in two runs as they are in one. -/
theorem putAll_append {db' : Database} {rows rest : List Row} :
    ∀ {db : Database}, putAll table key db (rows ++ rest) = .ok db'
      ↔ ∃ db₁, putAll table key db rows = .ok db₁ ∧ putAll table key db₁ rest = .ok db' := by
  -- induction on the first rows, with the database left open
  induction rows with
  | nil =>
      intro db
      constructor
      · exact fun h => ⟨db, rfl, h⟩
      · rintro ⟨_, ⟨⟩, h⟩
        exact h
  | cons row rows ih =>
      intro db
      rw [List.cons_append, putAll_cons]
      simp only [ih, putAll_cons]
      constructor
      · rintro ⟨outcome, first, hput, db₁, hrows, hrest⟩
        exact ⟨db₁, ⟨outcome, first, hput, hrows⟩, hrest⟩
      · rintro ⟨db₁, ⟨outcome, first, hput, hrows⟩, hrest⟩
        exact ⟨outcome, first, hput, db₁, hrows, hrest⟩

/-- The row has a value under the key, which is not NULL if the key is the row number.
    A key that is NULL there gets its number from the table, so the row would not land
    under it. -/
def HasKey (t : Table) (key : String) (i : Nat) (row : Row) : Prop :=
  ∃ v, row.get? key = some v ∧ (t.rowNumber? = some i → Stored.ofValue v ≠ .null)

/-- The key of a row is equal to what stood there before, in every row that was there.
    It need not be the same, as `1` and `1.0` are equal. -/
def KeepsKeyOf (i : Nat) (c : StoredColumn) (before after : List Cells) : Prop :=
  ∀ (p : Nat) (cells : Cells) (x : Stored), before[p]? = some cells →
    cells[i]? = some (c.affinity.store x) → ∃ (cells' : Cells) (y : Stored), after[p]? = some cells'
      ∧ cells'[i]? = some (c.affinity.store y) ∧ (c.affinity.store x).same (c.affinity.store y) = true

/-- A step keeps the keys of all rows, up to equality. -/
theorem put_keeps_key {db db' : Database} {t : Table} {row : Row} {v : Value} {outcome : Upserted}
    (hkey : t.position? key = some i) (hcolumn : t.columns[i]? = some c)
    (hget : row.get? key = some v) (hnumber : t.rowNumber? = some i → Stored.ofValue v ≠ .null)
    (hreach : db.reachable? table = some t) (h : db.put table key row v = .ok (outcome, db')) :
    ∃ rows, db'.reachable? table = some { t with rows } ∧ KeepsKeyOf i c t.rows rows := by
  obtain ⟨terms, rows, hterms, hreach', hothers, hlands⟩ :=
    put_lands hkey hcolumn hget hnumber hreach h
  refine ⟨rows, hreach', fun p cells x hcells hx => ?_⟩
  cases hselected : Search.selects terms cells with
  | false => exact ⟨cells, x, hothers p cells hcells hselected, hx, Stored.same_refl _⟩
  | true =>
      obtain ⟨cells', hcells', hnew⟩ := hlands p (Or.inl ⟨cells, hcells, hselected⟩)
      refine ⟨cells', _, hcells', hnew, Affinity.same_store_of_same_operand ?_⟩
      obtain ⟨-, -, hsame⟩ := (Search.selects_is hkey hcolumn hterms cells).mp hselected
      rwa [Table.cellAt, hx] at hsame

/-- **A RUN KEEPS THE KEYS** of all rows, up to equality.  An update writes the key of
    its row, but only to rows that have an equal one. -/
theorem putAll_keeps_key {rows : List Row} :
    ∀ {db db' : Database} {t : Table}, t.position? key = some i → t.columns[i]? = some c →
      (∀ row ∈ rows, HasKey t key i row) → db.reachable? table = some t →
      putAll table key db rows = .ok db' →
      ∃ after, db'.reachable? table = some { t with rows := after }
        ∧ KeepsKeyOf i c t.rows after := by
  -- induction on the rows; a cell that keeps its key passes it on
  induction rows with
  | nil =>
      intro db db' t _ _ _ hreach h
      obtain rfl := Except.ok.inj h
      exact ⟨t.rows, hreach, fun p cells x hcells hx => ⟨cells, x, hcells, hx, Stored.same_refl _⟩⟩
  | cons row rows ih =>
      intro db db' t hkey hcolumn hrows hreach h
      obtain ⟨⟨v, hget, hnumber⟩, hrest⟩ := List.forall_mem_cons.mp hrows
      obtain ⟨outcome, db₁, hput, h⟩ := putAll_cons.mp h
      rw [hget, Option.getD_some] at hput
      obtain ⟨rows₁, hreach₁, hstep⟩ := put_keeps_key hkey hcolumn hget hnumber hreach hput
      obtain ⟨after, hafter, hrun⟩ := ih (t := { t with rows := rows₁ }) hkey hcolumn hrest hreach₁ h
      refine ⟨after, hafter, fun p cells x hcells hx => ?_⟩
      obtain ⟨cells₁, y, hcells₁, hy, hxy⟩ := hstep p cells x hcells hx
      obtain ⟨cells₂, z, hcells₂, hz, hyz⟩ := hrun p cells₁ y hcells₁ hy
      exact ⟨cells₂, z, hcells₂, hz, Stored.same_trans hxy hyz⟩

/-! ## Rows that land at one position -/

/-- Putting a row under its key succeeds, and the row lands at the position: a row there
    has the key, or no row has it and the position is the next one. -/
def PutLands (db : Database) (table key : String) (row : Row) (v : Value) (p : Nat) : Prop :=
  ∃ outcome db' t terms, db.put table key row v = .ok (outcome, db')
    ∧ db.reachable? table = some t ∧ Search.terms t [Condition.is key v] = .ok terms
    ∧ t.Lands (Search.selects terms) p

/-- The row of a run at place `n` has a value under the key, and lands at position `p` of the
    table when it is put there after the rows before it. -/
def RowLands (db : Database) (table key : String) (rows : List Row) (n p : Nat) (v : Value) :
    Prop :=
  ∃ row before, rows[n]? = some row ∧ row.get? key = some v
    ∧ putAll table key db (rows.take n) = .ok before ∧ before.PutLands table key row v p

theorem take_eq_append {α : Type} {items : List α} {m n : Nat} {a : α} (hmn : m < n)
    (ha : items[m]? = some a) :
    items.take n = items.take m ++ a :: (items.drop (m + 1)).take (n - (m + 1)) := by
  obtain ⟨hm, rfl⟩ := List.getElem?_eq_some_iff.mp ha
  obtain ⟨k, rfl⟩ := Nat.exists_eq_add_of_lt hmn
  rw [Nat.add_assoc, List.take_add, List.drop_eq_getElem_cons hm, List.take_succ_cons]
  congr 3
  omega

/-- **A KEY THAT LANDED STAYS** at its position, up to equality, until a later row is
    put.  The position is that of the row in the table, and rows are never taken away,
    so it stays where it is. -/
theorem keeps_landed {db db' : Database} {t : Table} {rows : List Row} {m n p : Nat} {v : Value}
    (hkey : t.position? key = some i) (hcolumn : t.columns[i]? = some c)
    (hrows : ∀ row ∈ rows, HasKey t key i row) (hreach : db.reachable? table = some t)
    (hmn : m < n) (hlands : db.RowLands table key rows m p v)
    (hrun : putAll table key db (rows.take n) = .ok db') :
    ∃ after, db'.reachable? table = some { t with rows := after }
      ∧ ∃ (cells : Cells) (y : Stored), after[p]? = some cells
        ∧ cells[i]? = some (c.affinity.store y)
        ∧ (c.affinity.store (.ofValue v)).same (c.affinity.store y) = true := by
  obtain ⟨row, before, hrow, hget, hearlier, outcome, next, t₁, terms, hput, hreach₁, hterms,
    hposition⟩ := hlands
  -- the run goes through the step of the row
  rw [take_eq_append hmn hrow, putAll_append] at hrun
  obtain ⟨_, hsame, hrest⟩ := hrun
  obtain rfl := Except.ok.inj (hearlier.symm.trans hsame)
  obtain ⟨_, next₁, hput₁, hrest⟩ := putAll_cons.mp hrest
  rw [hget, Option.getD_some, hput] at hput₁
  obtain ⟨rfl, rfl⟩ := Prod.mk.inj (Except.ok.inj hput₁)
  -- which leaves the key at the position
  obtain ⟨rows₁, hbefore, -⟩ := putAll_keeps_key hkey hcolumn
    (fun r hr => hrows r (List.mem_of_mem_take hr)) hreach hearlier
  obtain rfl := Option.some.inj (hbefore.symm.trans hreach₁)
  obtain ⟨v', hget', hnumber⟩ := hrows row (List.mem_of_getElem? hrow)
  obtain rfl : v = v' := Option.some.inj (hget.symm.trans hget')
  obtain ⟨terms₁, rows₂, hterms₁, hnext, -, hwritten⟩ :=
    put_lands (t := { t with rows := rows₁ }) hkey hcolumn hget hnumber hbefore hput
  obtain rfl : terms = terms₁ := Except.ok.inj (hterms.symm.trans hterms₁)
  obtain ⟨cells, hcells, hcell⟩ := hwritten p hposition
  -- and the rows after it keep it
  obtain ⟨after, hafter, hkeeps⟩ := putAll_keeps_key (t := { t with rows := rows₂ }) hkey hcolumn
    (fun r hr => hrows r (List.mem_of_mem_drop (List.mem_of_mem_take hr))) hnext hrest
  exact ⟨after, hafter, hkeeps p cells _ hcells hcell⟩

/-- **ROWS THAT LAND AT ONE POSITION** have keys that are stored as equals, and none of them is
    NULL. -/
theorem same_of_lands {db : Database} {t : Table} {rows : List Row} {m n p : Nat} {v w : Value}
    (hkey : t.position? key = some i) (hcolumn : t.columns[i]? = some c)
    (hrows : ∀ row ∈ rows, HasKey t key i row) (hreach : db.reachable? table = some t)
    (hmn : m < n) (hm : db.RowLands table key rows m p v) (hn : db.RowLands table key rows n p w) :
    Stored.ofValue v ≠ .null ∧ Stored.ofValue w ≠ .null
      ∧ (c.affinity.store (.ofValue v)).same (c.affinity.store (.ofValue w)) = true := by
  obtain ⟨-, before, -, -, hearlier, -, -, t₁, terms, -, hreach₁, hterms, hlands⟩ := hn
  obtain ⟨rows', hbefore, cells, y, hcells, hy, hxy⟩ :=
    keeps_landed hkey hcolumn hrows hreach hmn hm hearlier
  obtain rfl := Option.some.inj (hbefore.symm.trans hreach₁)
  -- the later row does not land at the end, for the position is taken
  have hselected : Search.selects terms cells = true := by
    rcases hlands with ⟨found, hfound, hselected⟩ | ⟨-, rfl⟩
    · obtain rfl := Option.some.inj (hcells.symm.trans hfound)
      exact hselected
    · exact absurd (List.getElem?_eq_some_iff.mp hcells).1 (Nat.lt_irrefl _)
  obtain ⟨hold, hnew, hfinds⟩ := (Search.selects_is hkey hcolumn hterms cells).mp hselected
  rw [Table.cellAt, hy, Option.getD_some] at hold hfinds
  have hstored := Stored.same_trans hxy (Affinity.same_store_of_same_operand hfinds)
  refine ⟨fun hnull => hold ?_, hnew, hstored⟩
  rw [Stored.same_comm] at hxy
  exact Stored.eq_null_of_same hxy (Affinity.store_eq_null.mpr hnull)

end Database

/-! ## Bulk upserts -/

namespace Gateway

variable {table key : String} {s s' : Session}

/-- **A RUN OVER ROWS** puts the first of them, and all of them if it succeeds.  The run
    may be cancelled between two rows, and then the database holds what the rows before
    have left. -/
theorem run_putRows (htable : Dialect.sqlite.isValidName table = true) {w : Watch}
    {rows : List Row} :
    ∀ {i : Nat} {tally : Tally} {s : Session} {result : Except Failure Tally},
      (∀ row ∈ rows, ∃ v, row.get? key = some v) →
      (putRows w table key i rows tally).run s = (result, s') →
      ∃ n ≤ rows.length, Database.putAll table key s.database (rows.take n) = .ok s'.database
        ∧ ∀ t, result = .ok t → n = rows.length := by
  -- induction on the rows, whose invariant is the number of rows put so far
  induction rows with
  | nil =>
      intro i tally s result _ hrun
      obtain ⟨rfl, rfl⟩ := Prod.mk.inj hrun
      exact ⟨0, Nat.le_refl 0, rfl, fun _ _ => rfl⟩
  | cons row rows ih =>
      intro i tally s result hrows hrun
      obtain ⟨⟨v, hget⟩, hrest⟩ := List.forall_mem_cons.mp hrows
      rw [putRows, run_require_bind] at hrun
      -- cancelled before the row, failed at it, or done with it
      cases hseen : w.beforeRow i with
      | true =>
          rw [hseen] at hrun
          obtain ⟨rfl, rfl⟩ := Prod.mk.inj hrun
          exact ⟨0, Nat.zero_le _, rfl, by rintro _ ⟨⟩⟩
      | false =>
          rw [hseen] at hrun
          replace hrun : (put table row key >>= fun outcome =>
              putRows w table key (i + 1) rows (tally.count outcome)).run s = (result, s') := hrun
          have hput := run_put htable hget s
          rw [run_bind] at hrun
          cases hstep : s.database.put table key row v with
          | error fault =>
              rw [hstep] at hput
              obtain ⟨s₁, hfails, hsame⟩ := hput
              rw [hfails] at hrun
              obtain ⟨rfl, rfl⟩ := Prod.mk.inj hrun
              exact ⟨0, Nat.zero_le _, by rw [hsame]; rfl, by rintro _ ⟨⟩⟩
          | ok step =>
              rw [hstep] at hput
              obtain ⟨s₁, hdone, hsame⟩ := hput
              rw [hdone] at hrun
              obtain ⟨n, hn, hall, hend⟩ := ih hrest hrun
              refine ⟨n + 1, Nat.succ_le_succ hn, ?_, fun t ht => congrArg Nat.succ (hend t ht)⟩
              rw [hsame] at hall
              rw [List.take_succ_cons, Database.putAll_cons, hget]
              exact ⟨_, _, hstep, hall⟩

/-- Every row of a dataset with the key has a value under it. -/
theorem exists_key_of_mem {d : Dataset} (hd : d.Built) {c : DataColumn} (hc : c ∈ d.columns)
    (hname : sameName c.name key = true) {row : Row} (hrow : row ∈ d.rows) :
    ∃ v, row.get? key = some v := by
  obtain ⟨i, hi⟩ := List.getElem?_of_mem hrow
  obtain ⟨v, -, hget⟩ := Dataset.get?_row hd hi hc
  exact ⟨v, by rw [← Row.get?_congr hname, hget]⟩

/-- **A BULK UPSERT** fails before the first row and leaves the session alone, or it is a run
    over the rows of a dataset that has the key. -/
theorem upsertDataset_cases {g : Gateway} {w : Watch} {d : Dataset} (hd : d.Built)
    {result : Except Failure Tally} (hrun : (g.upsertDataset w d key).run s = (result, s')) :
    ((∃ f, result = .error f) ∧ s' = s)
      ∨ (∃ c ∈ d.columns, sameName c.name key = true)
        ∧ ∃ n ≤ d.rows.length,
          Database.putAll d.table key s.database (d.rows.take n) = .ok s'.database
          ∧ ∀ t, result = .ok t → n = d.rows.length := by
  rw [upsertDataset_eq_plan, run_require_bind] at hrun
  cases hplan : upsertPlan g w d key with
  | error f =>
      rw [hplan] at hrun
      obtain ⟨rfl, rfl⟩ := Prod.mk.inj hrun
      exact Or.inl ⟨⟨f, rfl⟩, rfl⟩
  | ok u =>
      rw [hplan] at hrun
      obtain ⟨_, htable, h⟩ := bind_eq_ok.mp hplan
      obtain ⟨_, -, h⟩ := bind_eq_ok.mp h
      obtain ⟨_, hhas, -⟩ := bind_eq_ok.mp h
      -- the check on the key has found it among the columns
      have hkey : d.hasColumn key = true := by
        by_contra hnone
        rw [checkKey, if_neg hnone] at hhas
        cases hhas
      obtain ⟨c, hc, hname⟩ := List.any_eq_true.mp hkey
      exact Or.inr ⟨⟨c, hc, hname⟩, run_putRows (checkTable_eq_ok.mp htable)
        (fun row hrow => exists_key_of_mem hd hc hname hrow) hrun⟩

end Gateway

end Gridbase
