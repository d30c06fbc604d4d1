import Gridbase.Gateway
import Gridbase.Proofs.Store.Updates
import Mathlib.Data.List.Forall2

/-! # Rows that filters select

    A read, an update and a removal are given their filters as a chain of conditions: the
    first one joins nothing, and every other one is joined by OR.

    * A filter is true, false or unknown on a row (`Filter.truth`).  A row is SELECTED if at
      least one filter is true on it, whatever the others are (`Filter.selects`).
    * A chain of any length selects these rows (`Search.selects_conditions`).
    * So a read gives the selected rows, a removal leaves the others in their places, and an
      update writes to the selected ones only (`select_filtered`, `delete_filtered`,
      `update_filtered`); and all three need the same of the names in the filters
      (`Table.Understands`). -/

namespace Gridbase

open Gridbase.Text

/-! ## Truth of filters -/

namespace Filter

/-- Whether a filter is true on a row: what its column holds is compared with its value.
    It is unknown where either is NULL, and where there is no such column. -/
def truth (t : Table) (cells : Cells) (f : Filter) : Truth :=
  match t.position? f.column with
  | some i =>
      Search.compareCell ((t.columns[i]?.map StoredColumn.affinity).getD .none) f.operator
        (Table.cellAt cells i) (Stored.ofValue f.value)
  | none => none

/-- At least one filter is true on a row.  A filter that is unknown there selects
    nothing by itself. -/
def selects (t : Table) (filters : List Filter) (cells : Cells) : Bool :=
  filters.any fun f => f.truth t cells == some true

theorem selects_cons {t : Table} {f : Filter} {rest : List Filter} {cells : Cells} :
    selects t (f :: rest) cells = true
      ↔ f.truth t cells = some true ∨ selects t rest cells = true := by
  simp [selects]

/-- The condition of a filter after the first one: filters are alternatives. -/
def alternative (f : Filter) : Condition := ⟨.or, f.column, f.operator, f.value⟩

/-- The names of columns in a chain are those in its filters. -/
theorem column_conditions (filters : List Filter) :
    (conditions filters).map Condition.column = filters.map Filter.column := by
  cases filters with
  | nil => rfl
  | cons f rest => simp [conditions, Function.comp_def]

end Filter

theorem Truth.or_eq_true {a b : Truth} : or a b = some true ↔ a = some true ∨ b = some true := by
  rcases a with _ | _ | _ <;> rcases b with _ | _ | _ <;> simp [or]

/-! ## Chains of conditions -/

namespace Search

variable {t : Table}

/-- A condition makes sense in a table exactly if its column is there. -/
theorem term_eq_ok {c : Condition} {term : Term} :
    Search.term t c = .ok term
      ↔ ∃ i, t.position? c.column = some i ∧ term = {
          connector := c.connector
          position := i
          affinity := (t.columns[i]?.map StoredColumn.affinity).getD .none
          operator := c.operator
          operand := Stored.ofValue c.value } := by
  rw [Search.term, column]
  cases t.position? c.column with
  | none =>
      constructor
      · intro h
        cases h
      · rintro ⟨i, hi, -⟩
        cases hi
  | some i =>
      constructor
      · intro h
        exact ⟨i, rfl, (Except.ok.inj h).symm⟩
      · rintro ⟨_, ⟨⟩, rfl⟩
        rfl

/-- The terms of conditions are found exactly if all their columns are. -/
theorem exists_terms_iff {conditions : List Condition} :
    (∃ found, terms t conditions = .ok found)
      ↔ ∀ column ∈ conditions.map Condition.column, (t.position? column).isSome = true := by
  induction conditions with
  | nil => exact ⟨fun _ _ h => (nomatch h), fun _ => ⟨[], rfl⟩⟩
  | cons c rest ih =>
      rw [List.map_cons, List.forall_mem_cons, ← ih, Option.isSome_iff_exists]
      constructor
      · rintro ⟨found, h⟩
        obtain ⟨first, hfirst, h⟩ := bind_eq_ok.mp h
        obtain ⟨others, hothers, -⟩ := bind_eq_ok.mp h
        obtain ⟨i, hi, -⟩ := term_eq_ok.mp hfirst
        exact ⟨⟨i, hi⟩, others, hothers⟩
      · rintro ⟨⟨i, hi⟩, others, hothers⟩
        have hterm := term_eq_ok.mpr ⟨i, hi, rfl⟩
        exact ⟨_, bind_eq_ok.mpr ⟨_, hterm, bind_eq_ok.mpr ⟨others, hothers, rfl⟩⟩⟩

/-- The term of a filter has its truth, however it is joined. -/
theorem eval_of_term {f : Filter} {connector : Connector} {found : Term}
    (h : Search.term t ⟨connector, f.column, f.operator, f.value⟩ = .ok found) (cells : Cells) :
    found.connector = connector ∧ found.eval cells = f.truth t cells := by
  obtain ⟨i, hi, rfl⟩ := term_eq_ok.mp h
  refine ⟨rfl, ?_⟩
  dsimp only at hi
  rw [Filter.truth, hi]
  rfl

/-- **ALTERNATIVES ADD ROWS ONLY**: what was true before them stays true, and each may make a
    row true by itself. -/
theorem evalFrom_alternatives {cells : Cells} {filters : List Filter} :
    ∀ {found : List Term} {total group : Truth},
      terms t (filters.map Filter.alternative) = .ok found →
      (evalFrom cells total group found = some true
        ↔ total = some true ∨ group = some true ∨ Filter.selects t filters cells = true) := by
  -- induction on the alternatives; the total and the group only gather
  induction filters with
  | nil =>
      intro found total group h
      obtain rfl := Except.ok.inj h
      rw [evalFrom, Truth.or_eq_true]
      simp [Filter.selects]
  | cons f rest ih =>
      intro found total group h
      obtain ⟨first, hfirst, h⟩ := bind_eq_ok.mp h
      obtain ⟨others, hothers, h⟩ := bind_eq_ok.mp h
      obtain rfl := Except.ok.inj h
      obtain ⟨hconnector, heval⟩ := eval_of_term hfirst cells
      rw [evalFrom, hconnector, heval, ih hothers, Truth.or_eq_true, or_assoc,
        Filter.selects_cons]

/-- **A CHAIN SELECTS** the rows on which at least one of its filters is true.  OR of
    truth values is true exactly if one of them is, also where others are unknown. -/
theorem selects_conditions {filters : List Filter} (hne : filters ≠ []) {found : List Term}
    (h : terms t (Filter.conditions filters) = .ok found) :
    Search.selects found = Filter.selects t filters := by
  funext cells
  cases filters with
  | nil => exact absurd rfl hne
  | cons f rest =>
      obtain ⟨first, hfirst, h⟩ := bind_eq_ok.mp h
      obtain ⟨others, hothers, h⟩ := bind_eq_ok.mp h
      obtain rfl := Except.ok.inj h
      obtain ⟨-, heval⟩ := eval_of_term hfirst cells
      have hothers : terms t (rest.map Filter.alternative) = .ok others := hothers
      have hchain : evalFrom cells (some false) (f.truth t cells) others = some true
          ↔ f.truth t cells = some true ∨ Filter.selects t rest cells = true := by
        rw [evalFrom_alternatives hothers]
        simp
      rw [Bool.eq_iff_iff, Search.selects, eval, heval, beq_iff_eq, hchain, Filter.selects_cons]

end Search

/-! ## Statements with filters -/

namespace Filter

/-- The read of the rows that filters select. -/
def selection (table : String) (filters : List Filter) : Select :=
  { table := some table, conditions := conditions filters }

/-- The removal of the rows that filters select. -/
def removal (table : String) (filters : List Filter) : Delete :=
  { table := some table, conditions := conditions filters }

/-- The update of the rows that filters select by the entries of a row. -/
def change (table : String) (row : Row) (filters : List Filter) : Update :=
  { table := some table, assignments := row.entries, conditions := conditions filters }

end Filter

/-- A row as it is read: the values of its cells under the names of their columns, in
    the order of the table. -/
def Table.shown (t : Table) (cells : Cells) : Row :=
  Search.project t (List.range t.columns.length) cells

/-- A row that a row was written to: a column that it names holds its value as the column
    stores it, and every other column holds what it held. -/
def Table.Rewritten (t : Table) (row : Row) (old new : Cells) : Prop :=
  ∀ (j : Nat) (c : StoredColumn), t.columns[j]? = some c →
    new[j]? = old[j]?.map fun x =>
      ((row.get? c.name).map fun v => c.affinity.store (Stored.ofValue v)).getD x

/-- The names of a statement with filters are understood: the table is no keyword, and every
    filter is on a column of the table that can be read. -/
structure Table.Understands (t : Table) (table : String) (filters : List Filter) : Prop where
  table : Word.isKeyword table = false
  words : ∀ column ∈ filters.map Filter.column, Word.isReadable column = true
  known : ∀ column ∈ filters.map Filter.column, (t.position? column).isSome = true

namespace Database

variable {db : Database} {table : String} {t : Table} {conditions : List Condition}
  {terms : List Search.Term}

theorem scan_perm (t : Table) : t.scan.Perm t.rows := by
  rw [Table.scan]
  cases t.rowNumber? with
  | none => exact .refl _
  | some i => exact List.mergeSort_perm ..

/-- **A READ GIVES** the rows that its conditions select.  They come by row number where
    a column holds it, and else as they stand in the table. -/
theorem select_eq_ok (hreach : db.reachable? table = some t) {found : List Row} :
    db.select { table := some table, conditions } = .ok found
      ↔ (Word.isKeyword table = false
          ∧ ∀ column ∈ conditions.map Condition.column, Word.isReadable column = true)
        ∧ ∃ terms, Search.terms t conditions = .ok terms
          ∧ found = (t.scan.filter (Search.selects terms)).map t.shown := by
  have htarget : db.target table = .ok t := by rw [target, hreach]
  -- the words of a selection are its table and the columns it reads
  have hcheck : Word.check (Select.words { table := some table, conditions }) = .ok ()
      ↔ Word.isKeyword table = false
        ∧ ∀ column ∈ conditions.map Condition.column, Word.isReadable column = true := by
    rw [Word.check_select_eq_ok]
    exact ⟨fun h => ⟨h.1, h.2.2.1⟩,
      fun h => ⟨h.1, List.forall_mem_nil _, h.2, List.forall_mem_nil _⟩⟩
  rw [← hcheck]
  constructor
  · intro h
    obtain ⟨_, hwords, h⟩ := bind_eq_ok.mp h
    obtain ⟨u, hu, h⟩ := bind_eq_ok.mp h
    obtain rfl : t = u := Except.ok.inj (htarget.symm.trans hu)
    obtain ⟨_, hshown, h⟩ := bind_eq_ok.mp h
    obtain ⟨terms, hterms, h⟩ := bind_eq_ok.mp h
    cases hshown
    cases h
    exact ⟨hwords, terms, hterms, rfl⟩
  · rintro ⟨hwords, terms, hterms, rfl⟩
    exact bind_eq_ok.mpr ⟨(), hwords, bind_eq_ok.mpr ⟨t, htarget,
      bind_eq_ok.mpr ⟨[], rfl, bind_eq_ok.mpr ⟨terms, hterms, rfl⟩⟩⟩⟩

/-- **A REMOVAL LEAVES** the rows that its conditions do not select.  The order of the
    rows that are left is not changed. -/
theorem delete_eq_ok (hreach : db.reachable? table = some t) {count : Nat} {db' : Database} :
    db.delete { table := some table, conditions } = .ok (count, db')
      ↔ (Word.isKeyword table = false
          ∧ ∀ column ∈ conditions.map Condition.column, Word.isReadable column = true)
        ∧ ∃ terms, Search.terms t conditions = .ok terms
          ∧ count = t.rows.countP (Search.selects terms)
          ∧ db' = db.withRows table (t.rows.filter fun cells => !Search.selects terms cells) := by
  -- the steps of the removal in their order, both ways
  have htarget : db.target table = .ok t := by rw [target, hreach]
  have hcheck := Word.check_delete_eq_ok (s := { table := some table, conditions })
  rw [Option.getD_some] at hcheck
  rw [← hcheck]
  constructor
  · intro h
    obtain ⟨_, hwords, h⟩ := bind_eq_ok.mp h
    obtain ⟨u, hu, h⟩ := bind_eq_ok.mp h
    obtain rfl : t = u := Except.ok.inj (htarget.symm.trans hu)
    obtain ⟨terms, hterms, h⟩ := bind_eq_ok.mp h
    cases h
    exact ⟨hwords, terms, hterms, rfl, rfl⟩
  · rintro ⟨hwords, terms, hterms, rfl, rfl⟩
    exact bind_eq_ok.mpr ⟨(), hwords, bind_eq_ok.mpr ⟨t, htarget,
      bind_eq_ok.mpr ⟨terms, hterms, rfl⟩⟩⟩

/-! ## The rows that filters select -/

variable {filters : List Filter}

/-- The chain of filters is understood exactly if its words and columns are. -/
theorem understands_iff : t.Understands table filters
    ↔ (Word.isKeyword table = false
        ∧ ∀ column ∈ (Filter.conditions filters).map Condition.column,
          Word.isReadable column = true)
      ∧ ∃ terms, Search.terms t (Filter.conditions filters) = .ok terms := by
  rw [Search.exists_terms_iff, Filter.column_conditions]
  exact ⟨fun h => ⟨⟨h.table, h.words⟩, h.known⟩, fun h => ⟨h.1.1, h.1.2, h.2⟩⟩

/-- **A READ SHOWS** exactly the rows on which at least one filter is true.  They come
    in the order of a scan, so this is up to order. -/
theorem select_filtered (hreach : db.reachable? table = some t) (hne : filters ≠ [])
    (h : t.Understands table filters) :
    ∃ rows : List Cells, db.select (Filter.selection table filters) = .ok (rows.map t.shown)
      ∧ rows.Perm (t.rows.filter (Filter.selects t filters)) := by
  obtain ⟨hwords, terms, hterms⟩ := understands_iff.mp h
  rw [← Search.selects_conditions hne hterms]
  exact ⟨_, (select_eq_ok hreach).mpr ⟨hwords, terms, hterms, rfl⟩, (scan_perm t).filter _⟩

/-- **A REMOVAL COUNTS** these rows, and leaves the others in their order. -/
theorem delete_filtered (hreach : db.reachable? table = some t) (hne : filters ≠ [])
    (h : t.Understands table filters) :
    db.delete (Filter.removal table filters)
      = .ok (t.rows.countP (Filter.selects t filters),
        db.withRows table (t.rows.filter fun cells => !Filter.selects t filters cells)) := by
  obtain ⟨hwords, terms, hterms⟩ := understands_iff.mp h
  rw [← Search.selects_conditions hne hterms]
  exact (delete_eq_ok hreach).mpr ⟨hwords, terms, hterms, rfl, rfl⟩

theorem rewritten_assigned (t : Table) (row : Row) (cells : Cells) :
    t.Rewritten row cells (Table.assigned t.columns row.entries cells) := by
  intro j c hc
  rw [Table.getElem?_assigned, hc]
  cases cells[j]? with
  | none => rfl
  | some x => exact congrArg (fun y => some (y.getD x)) (Table.written?_eq row c)

/-- **AN UPDATE WRITES** to these rows, each in its place, and to no others.  It may
    still be refused, as what it writes can break a rule of the table; then nothing is
    written. -/
theorem update_filtered (hreach : db.reachable? table = some t) (hne : filters ≠ []) {row : Row}
    {count : Nat} {db' : Database}
    (h : db.update (Filter.change table row filters) = .ok (count, db')) :
    count = t.rows.countP (Filter.selects t filters)
      ∧ ∃ rows, db' = db.withRows table rows
        ∧ List.Forall₂ (fun old new => if Filter.selects t filters old = true
          then t.Rewritten row old new else new = old) t.rows rows := by
  obtain ⟨-, -, terms, rows, hterms, hrows, rfl, rfl⟩ := (update_eq_ok rfl hreach).mp h
  rw [Search.selects_conditions hne hterms] at hrows ⊢
  refine ⟨rfl, rows, rfl, ?_⟩
  rw [Table.updateRows_eq_map hrows, List.reverse_nil, List.nil_append,
    List.forall₂_map_right_iff, List.forall₂_same]
  intro cells _
  split
  · exact rewritten_assigned t row cells
  · rfl

/-- An update with filters that succeeds has understood them. -/
theorem understands_of_update (hreach : db.reachable? table = some t) {row : Row} {count : Nat}
    {db' : Database}
    (h : db.update (Filter.change table row filters) = .ok (count, db')) :
    t.Understands table filters := by
  obtain ⟨⟨hnames, hcolumns⟩, -, terms, rows, hterms, -⟩ := (update_eq_ok rfl hreach).mp h
  exact understands_iff.mpr
    ⟨⟨hnames table (List.mem_cons_self ..), hcolumns⟩, terms, hterms⟩

end Database

end Gridbase
