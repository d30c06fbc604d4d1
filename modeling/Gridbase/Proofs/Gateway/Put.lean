import Gridbase.Proofs.Gateway.Checks
import Gridbase.Proofs.Statement.Completion
import Gridbase.Proofs.Store.Updates

/-! # One step: a row put under its key

    A row is put under its key by three statements: a lookup, and then an update or an
    insertion.  All three address the rows by the same value.

    * On the database this is ONE STEP (`Database.put`), and what a step has done is one of
      two things (`PutStep`, `put_eq_ok`).
    * A step on settled rows changes nothing (`put_settled`).
    * A run of the operation is such a step, if its checks succeed; it succeeds as a whole or
      leaves the database as it is (`run_upsert_cases`). -/

namespace Gridbase

open Gridbase.Text Gridbase.Session

/-! ## One step on the database -/

namespace Gateway

/-- The selection of the rows of a key.  It reads the key alone, since only whether
    there is a row is asked. -/
def lookup (table key : String) (id : Value) : Select :=
  { table := some table, columns := [key], conditions := [Condition.is key id] }

/-- The insertion of a row. -/
def addition (table : String) (row : Row) : Insert := ({ table := some table } : Insert).row row

/-- The update of the rows of a key.  It assigns all entries of the row, the key among
    them. -/
def change (table key : String) (row : Row) (id : Value) : Update :=
  { table := some table, assignments := row.entries, conditions := [Condition.is key id] }

/-- The statement that follows a lookup, and what it makes of the row; `none` tells that the
    lookup has found nothing. -/
def following (table key : String) (row : Row) (id : Value) (none : Bool) :
    Statement × Upserted :=
  if none then (.insert (addition table row), .inserted)
  else (.update (change table key row id), .updated)

end Gateway

open Gateway

namespace Database

/-- A row put under its key: what became of it, and the database.  The lookup decides
    between the two statements, so a key that is not found is inserted. -/
def put (db : Database) (table key : String) (row : Row) (id : Value) :
    Except StoreFault (Upserted × Database) := do
  let found ← db.select (lookup table key id)
  let (statement, outcome) := following table key row id found.isEmpty
  return (outcome, (← db.execute statement).2)

variable {db db' : Database} {table key : String} {row : Row} {id : Value} {t : Table}

theorem mem_scan {cells : Cells} : cells ∈ t.scan ↔ cells ∈ t.rows := by
  rw [Table.scan]
  cases t.rowNumber? with
  | none => exact Iff.rfl
  | some i => exact List.mem_mergeSort

/-- The words of a lookup: the key is read twice, once as a column and once in the condition. -/
theorem check_lookup_eq_ok : Word.check (lookup table key id).words = .ok ()
    ↔ Word.isKeyword table = false ∧ Word.isReadable key = true := by
  rw [Word.check_select_eq_ok]
  constructor
  · rintro ⟨htable, hcolumns, -, -⟩
    exact ⟨htable, hcolumns key (List.mem_singleton_self key)⟩
  · rintro ⟨htable, hkey⟩
    exact ⟨htable, List.forall_mem_singleton.mpr hkey, List.forall_mem_singleton.mpr hkey,
      List.forall_mem_nil _⟩

/-- **A LOOKUP FINDS A KEY** if it selects a row.  The words are asked for because the
    lookup is a text of its own, which may be refused where the table is found. -/
theorem select_lookup {terms : List Search.Term} (hreach : db.reachable? table = some t)
    (hterms : Search.terms t [Condition.is key id] = .ok terms)
    (hwords : Word.isKeyword table = false ∧ Word.isReadable key = true) :
    ∃ found, db.select (lookup table key id) = .ok found
      ∧ found.isEmpty = !t.rows.any (Search.selects terms) := by
  have htarget : db.target table = .ok t := by rw [target, hreach]
  obtain ⟨term, hterm, -⟩ := bind_eq_ok.mp hterms
  obtain ⟨i, hcolumn, -⟩ := bind_eq_ok.mp hterm
  have hcolumns : Search.columns t [key] = .ok [i] := by
    rw [Search.columns, show Search.column t key = .ok i from hcolumn]
    rfl
  refine ⟨(t.scan.filter (Search.selects terms)).map (Search.project t [i]), ?_, ?_⟩
  · refine bind_eq_ok.mpr ⟨(), check_lookup_eq_ok.mpr hwords, ?_⟩
    refine bind_eq_ok.mpr ⟨t, htarget, bind_eq_ok.mpr ⟨[i], hcolumns, ?_⟩⟩
    exact bind_eq_ok.mpr ⟨terms, hterms, rfl⟩
  · -- the order in which rows are visited does not matter for whether one is found
    rw [Bool.eq_iff_iff, List.isEmpty_iff, List.map_eq_nil_iff, List.filter_eq_nil_iff,
      Bool.not_eq_true', List.any_eq_false]
    exact ⟨fun h cells hcells => h cells (mem_scan.mpr hcells),
      fun h cells hcells => h cells (mem_scan.mp hcells)⟩

/-- **THE LOOKUP ONLY DECIDES** which statement follows: one by one the rows are asked whether
    they have the key. -/
theorem put_eq {terms : List Search.Term} (hreach : db.reachable? table = some t)
    (hterms : Search.terms t [Condition.is key id] = .ok terms)
    (hwords : Word.isKeyword table = false ∧ Word.isReadable key = true) :
    db.put table key row id = do
      let (statement, outcome) :=
        following table key row id (!t.rows.any (Search.selects terms))
      return (outcome, (← db.execute statement).2) := by
  obtain ⟨found, hselect, hempty⟩ := select_lookup hreach hterms hwords
  rw [← hempty, put, hselect]
  rfl

/-- A lookup succeeds where its table and its column are there and its words are names.
    -/
theorem select_lookup_eq_ok {found : List Row}
    (h : db.select (lookup table key id) = .ok found) :
    ∃ t terms, db.reachable? table = some t
      ∧ Search.terms t [Condition.is key id] = .ok terms
      ∧ (Word.isKeyword table = false ∧ Word.isReadable key = true)
      ∧ found.isEmpty = !t.rows.any (Search.selects terms) := by
  have hselect := h
  obtain ⟨_, hwords, h⟩ := bind_eq_ok.mp h
  obtain ⟨t, htarget, h⟩ := bind_eq_ok.mp h
  obtain ⟨_, -, h⟩ := bind_eq_ok.mp h
  obtain ⟨terms, hterms, -⟩ := bind_eq_ok.mp h
  have hreach : db.reachable? table = some t := by
    rw [target] at htarget
    cases hfind : db.reachable? table with
    | none =>
        simp only [lookup, Option.getD_some, hfind] at htarget
        cases htarget
    | some u =>
        simp only [lookup, Option.getD_some, hfind] at htarget
        rw [Except.ok.inj htarget]
  obtain ⟨found', hfound', hempty⟩ := select_lookup hreach hterms (check_lookup_eq_ok.mp hwords)
  obtain rfl : found' = found := Except.ok.inj (hfound'.symm.trans hselect)
  exact ⟨t, terms, hreach, hterms, check_lookup_eq_ok.mp hwords, hempty⟩

/-- The table can take the row: the key can be read, no other word of the statements is a
    keyword, and every entry has its column. -/
structure Writable (t : Table) (table key : String) (row : Row) : Prop where
  key : Word.isReadable key = true
  words : ∀ word ∈ table :: row.names, Word.isKeyword word = false
  known : ∀ name ∈ row.names, (t.position? name).isSome = true

/-- The entries of an added row are those of the row. -/
theorem insertEntries_addition (t : Table) (table : String) {row : Row} (h : row.entries ≠ []) :
    insertEntries t (addition table row) = row.entries := by
  have hempty : (row.entries.map Entry.name).isEmpty = false := by
    rw [List.isEmpty_eq_false_iff]
    simpa using h
  show ((if ([] ++ row.entries.map Entry.name).isEmpty then _
    else [] ++ row.entries.map Entry.name).zip ([] ++ row.entries.map Entry.value)).map _ = _
  rw [List.nil_append, List.nil_append, hempty, if_neg Bool.false_ne_true, List.zip_map',
    List.map_map]
  exact List.map_id _

/-- What a step has done to the table: no row was selected, and one was added at the end; or
    some were, and they were changed in place. -/
inductive PutStep (db : Database) (table : String) (t : Table) (selected : Cells → Bool)
    (row : Row) : Upserted → Database → Prop
  | inserted {cells : Cells} {db' : Database} (none : ∀ a ∈ t.rows, selected a = false)
      (new : t.newRow (db.lastUsed t.name) row.entries = .ok cells)
      (after : db'.reachable? table = some (t.append cells)) :
      PutStep db table t selected row .inserted db'
  | updated {rows : List Cells} (found : ∃ a ∈ t.rows, selected a = true)
      (changed : t.updateRows selected row.entries [] t.rows = .ok rows) :
      PutStep db table t selected row .updated (db.withRows table rows)

/-- **A STEP THAT SUCCEEDS** has done one of the two.  Whatever went through was allowed
    to: the table is there, the condition makes sense in it, and the row can be written
    to it. -/
theorem put_eq_ok {outcome : Upserted} (hrow : row.entries ≠ [])
    (h : db.put table key row id = .ok (outcome, db')) :
    ∃ t terms, db.reachable? table = some t
      ∧ Search.terms t [Condition.is key id] = .ok terms ∧ Writable t table key row
      ∧ PutStep db table t (Search.selects terms) row outcome db' := by
  obtain ⟨found, hfound, h⟩ := bind_eq_ok.mp h
  obtain ⟨t, terms, hreach, hterms, hwords, hempty⟩ := select_lookup_eq_ok hfound
  refine ⟨t, terms, hreach, hterms, ?_⟩
  cases hany : t.rows.any (Search.selects terms) with
  | false =>
      rw [hempty, hany] at h
      obtain ⟨⟨count, db''⟩, hinsert, h⟩ := bind_eq_ok.mp h
      cases h
      obtain ⟨-, hnames, hknown, cells, hcells, hafter⟩ := insert_eq_ok rfl hreach hinsert
      rw [insertEntries_addition t table hrow] at hcells
      refine ⟨⟨hwords.2, hnames, hknown⟩, .inserted (fun a ha => ?_) hcells hafter⟩
      exact Bool.eq_false_iff.mpr (List.any_eq_false.mp hany a ha)
  | true =>
      rw [hempty, hany] at h
      obtain ⟨⟨count, db''⟩, hupdate, h⟩ := bind_eq_ok.mp h
      cases h
      obtain ⟨⟨hnames, -⟩, hknown, terms', rows, hterms', hrows, rfl, -⟩ :=
        (update_eq_ok rfl hreach).mp hupdate
      obtain rfl : terms = terms' := Except.ok.inj (hterms.symm.trans hterms')
      exact ⟨⟨hwords.2, hnames, hknown⟩, .updated (List.any_eq_true.mp hany) hrows⟩

/-- **A STEP ON SETTLED ROWS CHANGES NOTHING.**  The update runs over all rows that are
    found and leaves each of them as it is. -/
theorem put_settled {terms : List Search.Term} (hreach : db.reachable? table = some t)
    (hterms : Search.terms t [Condition.is key id] = .ok terms) (hwrite : Writable t table key row)
    (hfound : ∃ cells ∈ t.rows, Search.selects terms cells = true)
    (h : t.Settled (Search.selects terms) row.entries t.rows) :
    db.put table key row id = .ok (.updated, db) := by
  have htable : Word.isKeyword table = false := hwrite.words table (List.mem_cons_self ..)
  have hupdate : ∃ count, db.update (change table key row id) = .ok (count, db) :=
    ⟨_, (update_eq_ok rfl hreach).mpr ⟨⟨hwrite.words, List.forall_mem_singleton.mpr hwrite.key⟩,
      hwrite.known, terms, t.rows, hterms, Table.updateRows_settled h,
      (withRows_self hreach).symm, rfl⟩⟩
  obtain ⟨count, hupdate⟩ := hupdate
  rw [put_eq hreach hterms ⟨htable, hwrite.key⟩, List.any_eq_true.mpr hfound]
  exact bind_eq_ok.mpr ⟨(count, db), hupdate, rfl⟩

end Database

/-! ## Runs -/

theorem Row.entries_ne_nil {row : Row} {name : String} {v : Value} (h : row.get? name = some v) :
    row.entries ≠ [] := by
  intro hnil
  rw [Row.get?, hnil] at h
  cases h

namespace Gateway

variable {table key : String} {row : Row} {id : Value}

theorem run_send_for {statement : Statement} {q : Query} (h : statement.build .sqlite = .ok q)
    (outcome : Upserted) (s : Session) :
    (discard (send statement) >>= fun _ => pure outcome).run s
      = match s.database.execute statement with
        | .ok (_, database) => (.ok outcome, s.sending q database)
        | .error fault => (.error fault.toFailure, s.sending q s.database) := by
  rw [run_discard_bind, run_send h]
  cases s.database.execute statement <;> rfl

/-- **A RUN IS A STEP**: its result is that of the step on the database, and a failure leaves
    the database alone. -/
theorem run_put (htable : Dialect.sqlite.isValidName table = true) (hget : row.get? key = some id)
    (s : Session) :
    match s.database.put table key row id with
    | .ok (outcome, database) =>
        ∃ s', (put table row key).run s = (.ok outcome, s') ∧ s'.database = database
    | .error fault =>
        ∃ s', (put table row key).run s = (.error fault.toFailure, s')
          ∧ s'.database = s.database := by
  have hentries := Row.entries_ne_nil hget
  have hlookup : (lookup table key id).build .sqlite = .ok _ := Select.build_eq_ok rfl htable
  have hfollowing : ∀ none, ∃ q, (following table key row id none).1.build .sqlite = .ok q := by
    intro none
    cases none with
    | true =>
        exact ⟨_, Insert.build_eq_ok rfl htable (by simpa [addition, Insert.row] using hentries)
          (by simp [addition, Insert.row])⟩
    | false => exact ⟨_, Update.build_eq_ok rfl htable hentries⟩
  have hput : put table row key = ask (lookup table key id) >>= fun found =>
      discard (send (following table key row id found.isEmpty).1) >>= fun _ =>
        pure (following table key row id found.isEmpty).2 := by
    rw [put, hget]
    refine congrArg (ask (lookup table key id) >>= ·) (funext fun found => ?_)
    cases found.isEmpty <;> rfl
  rw [hput, run_bind, run_ask hlookup, Database.put]
  cases s.database.select (lookup table key id) with
  | error fault => exact ⟨_, rfl, rfl⟩
  | ok found =>
      obtain ⟨q, hq⟩ := hfollowing found.isEmpty
      have hrun := run_send_for hq (following table key row id found.isEmpty).2
        (s.sending (Query.ofFragments .sqlite ((lookup table key id).fragments table)) s.database)
      rw [database_sending] at hrun
      dsimp only [Except.mapError, bind, Except.bind]
      cases hexecute : s.database.execute (following table key row id found.isEmpty).1 with
      | error fault =>
          rw [hexecute] at hrun
          exact ⟨_, hrun, rfl⟩
      | ok result =>
          rw [hexecute] at hrun
          exact ⟨_, hrun, rfl⟩

section

variable {g : Gateway} {s s' : Session}

theorem run_upsert_of_checks (hchecks : upsertChecks g table row key = .ok ())
    (hget : row.get? key = some id) (s : Session) :
    match s.database.put table key row id with
    | .ok (outcome, database) =>
        ∃ s', (g.upsert table row key).run s = (.ok outcome, s') ∧ s'.database = database
    | .error fault =>
        ∃ s', (g.upsert table row key).run s = (.error fault.toFailure, s')
          ∧ s'.database = s.database := by
  obtain ⟨_, htable, -⟩ := bind_eq_ok.mp hchecks
  rw [run_upsert, hchecks]
  exact run_put (checkTable_eq_ok.mp htable) hget s

/-- **AN OPERATION FAILS** and leaves the database as it is, or it makes its step.  In
    the first case something was refused: by the checks, for the missing key, or by the
    database. -/
theorem run_upsert_cases (g : Gateway) (table : String) (row : Row) (key : String) (s : Session) :
    (∃ f s', (g.upsert table row key).run s = (.error f, s') ∧ s'.database = s.database)
      ∨ ∃ id outcome s', upsertChecks g table row key = .ok () ∧ row.get? key = some id
        ∧ s.database.put table key row id = .ok (outcome, s'.database)
        ∧ (g.upsert table row key).run s = (.ok outcome, s') := by
  cases hchecks : upsertChecks g table row key with
  | error f => exact Or.inl ⟨f, s, by rw [run_upsert, hchecks], rfl⟩
  | ok u =>
      cases hget : row.get? key with
      | none => exact Or.inl ⟨_, s, by rw [run_upsert, hchecks, put, hget]; rfl, rfl⟩
      | some id =>
          have hrun := run_upsert_of_checks hchecks hget s
          cases hput : s.database.put table key row id with
          | error fault =>
              rw [hput] at hrun
              obtain ⟨s', hrun, hsame⟩ := hrun
              exact Or.inl ⟨_, s', hrun, hsame⟩
          | ok result =>
              rw [hput] at hrun
              obtain ⟨s', hrun, hsame⟩ := hrun
              exact Or.inr ⟨id, result.1, s', rfl, rfl, by rw [hput, hsame], hrun⟩

theorem upsert_eq_ok {outcome : Upserted}
    (h : (g.upsert table row key).run s = (.ok outcome, s')) :
    upsertChecks g table row key = .ok ()
      ∧ ∃ id, row.get? key = some id
        ∧ s.database.put table key row id = .ok (outcome, s'.database) := by
  rcases run_upsert_cases g table row key s with
    ⟨f, s₁, hrun, -⟩ | ⟨id, outcome₁, s₁, hchecks, hget, hput, hrun⟩
  · exact nomatch congrArg Prod.fst (hrun.symm.trans h)
  · cases hrun.symm.trans h
    exact ⟨hchecks, id, hget, hput⟩

theorem upsert_eq_error {f : Failure} (h : (g.upsert table row key).run s = (.error f, s')) :
    s'.database = s.database := by
  rcases run_upsert_cases g table row key s with
    ⟨f₁, s₁, hrun, hsame⟩ | ⟨id, outcome₁, s₁, -, -, -, hrun⟩
  · cases hrun.symm.trans h
    exact hsame
  · exact nomatch congrArg Prod.fst (hrun.symm.trans h)

end

end Gateway

end Gridbase
