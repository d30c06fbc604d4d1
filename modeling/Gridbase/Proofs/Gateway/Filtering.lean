import Gridbase.Proofs.Gateway.Checks
import Gridbase.Proofs.Statement.Completion
import Gridbase.Proofs.Store.Filters

/-! # One list of filters, three operations

    A read, a removal and an update that are given the same filters select the same rows.

    * Once its checks have succeeded, each operation sends one statement over the chain of
      the filters (`get_eq`, `deleteWhere_eq`, `updateWhere_eq`).
    * Where the filters are on columns that the table understands, the three agree on the rows
      (`FiltersAgree`); where it does not, all of them fail (`filters_agree`).  A name that is
      valid may still be a keyword, and a table may have it as a column: then it is not
      understood. -/

namespace Gridbase

open Gridbase.Text Gridbase.Session

namespace Gateway

variable {g : Gateway} {table : String} {filters : List Filter} {row : Row} {s s' : Session}
  {t : Table}

/-! ## Statements that are sent -/

theorem get_eq (haddress : g.checkAddress = .ok ())
    (htable : Dialect.sqlite.isValidName table = true)
    (hcolumns : ∀ f ∈ filters, Dialect.sqlite.isValidName f.column = true) :
    g.get table [] filters [] = ask (Filter.selection table filters) := by
  rw [get, checkTable_eq_ok.mpr htable, checkFilters_eq_ok.mpr hcolumns, query_eq_ask haddress]
  rfl

theorem deleteWhere_eq (haddress : g.checkAddress = .ok ())
    (htable : Dialect.sqlite.isValidName table = true) (hne : filters ≠ [])
    (hcolumns : ∀ f ∈ filters, Dialect.sqlite.isValidName f.column = true) :
    g.deleteWhere table filters = send (.delete (Filter.removal table filters)) := by
  rw [deleteWhere, checkTable_eq_ok.mpr htable, checkSome_eq_ok.mpr hne,
    checkFilters_eq_ok.mpr hcolumns, run_eq_send haddress]
  rfl

/-- An update also checks its row, and fails before anything is sent if that check does. -/
theorem updateWhere_eq (haddress : g.checkAddress = .ok ())
    (htable : Dialect.sqlite.isValidName table = true) (hne : filters ≠ [])
    (hcolumns : ∀ f ∈ filters, Dialect.sqlite.isValidName f.column = true) :
    g.updateWhere table row filters
      = require (checkRow row) >>= fun _ => send (.update (Filter.change table row filters)) := by
  rw [updateWhere, checkTable_eq_ok.mpr htable, checkSome_eq_ok.mpr hne,
    checkFilters_eq_ok.mpr hcolumns, run_eq_send haddress]
  rfl

theorem build_selection (htable : Dialect.sqlite.isValidName table = true) (filters : List Filter) :
    ∃ q, (Filter.selection table filters).build .sqlite = .ok q :=
  ⟨_, Select.build_eq_ok rfl htable⟩

theorem build_removal (htable : Dialect.sqlite.isValidName table = true) (filters : List Filter) :
    ∃ q, (Statement.delete (Filter.removal table filters)).build .sqlite = .ok q :=
  ⟨_, Delete.build_eq_ok rfl htable⟩

theorem build_change (htable : Dialect.sqlite.isValidName table = true)
    (hrow : checkRow row = .ok ()) (filters : List Filter) :
    ∃ q, (Statement.update (Filter.change table row filters)).build .sqlite = .ok q :=
  ⟨_, Update.build_eq_ok rfl htable (checkRow_eq_ok.mp hrow).1⟩

/-! ## Agreement -/

/-- What some filters select in a table, as the three operations have it.  The read
    shows these rows, the removal takes them away and leaves the others in their order,
    and an update that succeeds rewrites them in their places.  Both counts are the
    number of them. -/
structure FiltersAgree (g : Gateway) (table : String) (filters : List Filter) (t : Table)
    (s : Session) : Prop where
  read : ∃ (rows : List Cells) (s' : Session),
    (g.get table [] filters []).run s = (.ok (rows.map t.shown), s')
      ∧ s'.database = s.database ∧ rows.Perm (t.rows.filter (Filter.selects t filters))
  removed : ∃ s', (g.deleteWhere table filters).run s
      = (.ok (t.rows.countP (Filter.selects t filters)), s')
    ∧ s'.database = s.database.withRows table
      (t.rows.filter fun cells => !Filter.selects t filters cells)
  updated : ∀ row count s', t.Writes row →
    (g.updateWhere table row filters).run s = (.ok count, s') →
    count = t.rows.countP (Filter.selects t filters)
      ∧ ∃ rows, s'.database = s.database.withRows table rows
        ∧ List.Forall₂ (fun old new => if Filter.selects t filters old = true
          then t.Rewritten row old new else new = old) t.rows rows

/-- An action fails and leaves the database as it is.  The session may have one more
    query in its log. -/
def FailsOn {α : Type} (x : Action α) (s : Session) : Prop :=
  ∃ f s', x.run s = (.error f, s') ∧ s'.database = s.database

/-- A selection that is sent gives the rows of the database, or fails as it does. -/
theorem run_ask_cases {select : Select} {q : Query} (hbuild : select.build .sqlite = .ok q)
    (s : Session) :
    FailsOn (ask select) s
      ∨ ∃ rows s', (ask select).run s = (.ok rows, s') ∧ s'.database = s.database
        ∧ s.database.select select = .ok rows := by
  have hrun := run_ask hbuild s
  cases hselect : s.database.select select with
  | error fault =>
      rw [hselect] at hrun
      exact Or.inl ⟨_, _, hrun, rfl⟩
  | ok rows =>
      rw [hselect] at hrun
      exact Or.inr ⟨rows, _, hrun, rfl, rfl⟩

/-- A statement that is sent changes the database as it says, or fails and changes nothing. -/
theorem run_send_cases {statement : Statement} {q : Query}
    (hbuild : statement.build .sqlite = .ok q) (s : Session) :
    FailsOn (send statement) s
      ∨ ∃ count s', (send statement).run s = (.ok count, s')
        ∧ s.database.execute statement = .ok (count, s'.database) := by
  have hrun := run_send hbuild s
  cases hexecute : s.database.execute statement with
  | error fault =>
      rw [hexecute] at hrun
      exact Or.inl ⟨_, _, hrun, rfl⟩
  | ok result =>
      rw [hexecute] at hrun
      exact Or.inr ⟨_, _, hrun, rfl⟩

/-- A chain fails where its checks do. -/
theorem failsOn_require_bind {α β : Type} {checks : Except Failure α} {x : α → Action β}
    (h : ∀ a, checks = .ok a → FailsOn (x a) s) : FailsOn (require checks >>= x) s := by
  cases checks with
  | error f => exact ⟨f, s, rfl, rfl⟩
  | ok a => exact h a rfl

section

variable (haddress : g.checkAddress = .ok ()) (htable : Dialect.sqlite.isValidName table = true)
  (hreach : s.database.reachable? table = some t)
  (hcolumns : ∀ f ∈ filters, Dialect.sqlite.isValidName f.column = true) (hne : filters ≠ [])

include haddress htable hreach hcolumns hne

/-- **WHERE THE FILTERS ARE UNDERSTOOD**, the three operations agree.  Each of the three
    comes from the law of its own statement, over one and the same set of rows. -/
theorem filtersAgree_of_understands (h : t.Understands table filters) :
    FiltersAgree g table filters t s where
  read := by
    obtain ⟨rows, hselect, hperm⟩ := Database.select_filtered hreach hne h
    obtain ⟨q, hbuild⟩ := build_selection htable filters
    have hrun := run_ask hbuild s
    rw [hselect, ← get_eq haddress htable hcolumns] at hrun
    exact ⟨rows, _, hrun, rfl, hperm⟩
  removed := by
    have hdelete := Database.delete_filtered hreach hne h
    obtain ⟨q, hbuild⟩ := build_removal htable filters
    have hrun := run_send hbuild s
    rw [Database.execute, hdelete, ← deleteWhere_eq haddress htable hne hcolumns] at hrun
    exact ⟨_, hrun, rfl⟩
  updated := by
    intro row count s' _ hrun
    rw [updateWhere_eq haddress htable hne hcolumns, run_require_bind] at hrun
    cases hcheck : checkRow row with
    | error f =>
        rw [hcheck] at hrun
        exact nomatch congrArg Prod.fst hrun
    | ok u =>
        rw [hcheck] at hrun
        -- an update can still fail at a row, hence only what holds if it succeeds
        obtain ⟨q, hbuild⟩ := build_change htable hcheck filters
        rcases run_send_cases hbuild s with
          ⟨f, s₁, hfail, -⟩ | ⟨count₁, s₁, hsend, hexecute⟩
        · exact nomatch congrArg Prod.fst (hfail.symm.trans hrun)
        · cases hsend.symm.trans hrun
          exact Database.update_filtered hreach hne hexecute

/-- **WHERE THEY ARE NOT**, all three fail and leave the database as it is.  A column
    that is not there and a word that is no name each stop all three of them, before any
    row is looked at. -/
theorem failsOn_of_not_understands (h : ¬ t.Understands table filters) :
    FailsOn (g.get table [] filters []) s ∧ FailsOn (g.deleteWhere table filters) s
      ∧ ∀ row, FailsOn (g.updateWhere table row filters) s := by
  -- each of the three would have found the columns, had it succeeded
  refine ⟨?_, ?_, fun row => ?_⟩
  · rw [get_eq haddress htable hcolumns]
    obtain ⟨q, hbuild⟩ := build_selection htable filters
    rcases run_ask_cases hbuild s with hfail | ⟨rows, s', -, -, hselect⟩
    · exact hfail
    · obtain ⟨hwords, terms, hterms, -⟩ := (Database.select_eq_ok hreach).mp hselect
      exact absurd (Database.understands_iff.mpr ⟨hwords, terms, hterms⟩) h
  · rw [deleteWhere_eq haddress htable hne hcolumns]
    obtain ⟨q, hbuild⟩ := build_removal htable filters
    rcases run_send_cases hbuild s with hfail | ⟨count, s', -, hexecute⟩
    · exact hfail
    · obtain ⟨hwords, terms, hterms, -⟩ := (Database.delete_eq_ok hreach).mp hexecute
      exact absurd (Database.understands_iff.mpr ⟨hwords, terms, hterms⟩) h
  · rw [updateWhere_eq haddress htable hne hcolumns]
    refine failsOn_require_bind fun _ hcheck => ?_
    obtain ⟨q, hbuild⟩ := build_change htable hcheck filters
    rcases run_send_cases hbuild s with
      hfail | ⟨count, s', -, hexecute⟩
    · exact hfail
    · exact absurd (Database.understands_of_update hreach hexecute) h

end

/-! ## The three operations -/

/-- **READS, REMOVALS AND UPDATES AGREE** on the rows that a list of filters selects, wherever
    its words stand for columns that the table understands.  If a word is no name, or if no
    column has it, then each of them fails.  Without filters a read selects all rows, and the
    other two are refused before anything is sent. -/
theorem filters_agree {g : Gateway} {table : String} {s : Session} {t : Table}
    (haddress : g.checkAddress = .ok ()) (htable : Dialect.sqlite.isValidName table = true)
    (hreach : s.database.reachable? table = some t) :
    (∀ filters : List Filter, filters ≠ [] →
      (∀ f ∈ filters, Dialect.sqlite.isValidName f.column = true) →
        ((∀ f ∈ filters, t.Reads f.column) → t.Understands table filters →
          FiltersAgree g table filters t s)
        ∧ (Word.isKeyword table = true ∨ (∃ f ∈ filters, Word.isReadable f.column = false)
            ∨ (∀ f ∈ filters, t.Reads f.column) ∧ ¬ t.Understands table filters →
          FailsOn (g.get table [] filters []) s ∧ FailsOn (g.deleteWhere table filters) s
            ∧ ∀ row, FailsOn (g.updateWhere table row filters) s))
    ∧ (t.Understands table [] → ∃ (rows : List Cells) (s' : Session),
        (g.get table [] [] []).run s = (.ok (rows.map t.shown), s')
          ∧ s'.database = s.database ∧ rows.Perm t.rows)
    ∧ (∃ f, f.kind = .validation ∧ (g.deleteWhere table []).run s = (.error f, s))
    ∧ ∀ row, ∃ f, f.kind = .validation ∧ (g.updateWhere table row []).run s = (.error f, s) := by
  refine ⟨fun filters hne hcolumns => ⟨?_, ?_⟩, fun h => ?_, ?_, fun row => ?_⟩
  · exact fun _ => filtersAgree_of_understands haddress htable hreach hcolumns hne
  · intro hwords
    refine failsOn_of_not_understands haddress htable hreach hcolumns hne fun h => ?_
    -- all three reasons contradict that the table understands the filters
    rcases hwords with hkeyword | ⟨f, hf, hread⟩ | ⟨-, hnot⟩
    · exact absurd (h.table.symm.trans hkeyword) Bool.false_ne_true
    · have hreadable := h.words f.column (List.mem_map_of_mem hf)
      exact absurd (hread.symm.trans hreadable) Bool.false_ne_true
    · exact hnot h
  · -- without filters the selection is the whole table
    obtain ⟨hwords, terms, hterms⟩ := Database.understands_iff.mp h
    obtain rfl : [] = terms := Except.ok.inj hterms
    have hselect := (Database.select_eq_ok hreach).mpr ⟨hwords, [], hterms, rfl⟩
    obtain ⟨q, hbuild⟩ := build_selection htable []
    have hrun := run_ask hbuild s
    rw [Filter.selection, hselect, ← Filter.selection,
      ← get_eq haddress htable (List.forall_mem_nil _)] at hrun
    have hall : t.scan.filter (Search.selects []) = t.scan := List.filter_eq_self.mpr fun _ _ => rfl
    refine ⟨_, _, hrun, rfl, ?_⟩
    rw [hall]
    exact Database.scan_perm t
  · refine ⟨.invalid "Conditions cannot be empty.", rfl, ?_⟩
    rw [deleteWhere, checkTable_eq_ok.mpr htable]
    rfl
  · rw [updateWhere, checkTable_eq_ok.mpr htable]
    cases hrow : checkRow row with
    | error f => exact ⟨f, refusal_checkRow row f hrow, rfl⟩
    | ok u => exact ⟨.invalid "Conditions cannot be empty.", rfl, rfl⟩

/-- A table with NULLs and with a keyword for the name of a column.  The keyword is a
    valid name, so there can be such a table. -/
def quotas : Table where
  name := "Quotas"
  writtenName := "\"Quotas\""
  definition := " (\n    \"Id\" INTEGER NOT NULL PRIMARY KEY,\n    \"Limit\" INTEGER NULL,\n"
    ++ "    \"Owner\" TEXT NULL\n)"
  generated := false
  columns := [
    { name := "Id", declaredType := "INTEGER", notNull := true, primaryKey := true },
    { name := "Limit", declaredType := "INTEGER" },
    { name := "Owner", declaredType := "TEXT" }]
  rows := [
    [.integer 3, .integer 10, .text "Ada"],
    [.integer 1, .null, .null],
    [.integer 2, .integer 20, .text "Bob"]]

/-- A session with that table. -/
def quotasSession : Session where
  database := { tables := [quotas] }

/-- Filters on the owner and the number, of which one is unknown on the second row.  The
    other one decides there. -/
def byOwnerOrId : List Filter := [⟨"Owner", .ne, .text "Ada"⟩, ⟨"id", .lt, .int 2⟩]

/-- The owner and the number of a quota can be filtered on, and its limit cannot.  All
    three statements have the name bare in their WHERE clause, where it is a keyword. -/
theorem filters_agree_quotas :
    FiltersAgree ⟨.ok "memory"⟩ "Quotas" byOwnerOrId quotas quotasSession
      ∧ quotas.rows.filter (Filter.selects quotas byOwnerOrId)
        = [[.integer 1, .null, .null], [.integer 2, .integer 20, .text "Bob"]]
      ∧ Dialect.sqlite.isValidName "Limit" = true
      ∧ FailsOn (Gateway.get ⟨.ok "memory"⟩ "Quotas" [] [⟨"Limit", .gt, .int 0⟩] []) quotasSession
      ∧ FailsOn (Gateway.deleteWhere ⟨.ok "memory"⟩ "Quotas" [⟨"Limit", .gt, .int 0⟩])
        quotasSession := by
  have hreach : quotasSession.database.reachable? "Quotas" = some quotas := by decide +kernel
  obtain ⟨hfilters, -⟩ := filters_agree (g := ⟨.ok "memory"⟩) (by decide +kernel)
    (by decide +kernel) hreach
  refine ⟨?_, by decide +kernel, by decide +kernel, ?_⟩
  · exact (hfilters byOwnerOrId nofun (by decide +kernel)).1 (by decide +kernel)
      ⟨by decide +kernel, by decide +kernel, by decide +kernel⟩
  · have hlimit : ∃ f ∈ [(⟨"Limit", .gt, .int 0⟩ : Filter)], Word.isReadable f.column = false :=
      ⟨_, List.mem_singleton_self _, by decide +kernel⟩
    obtain ⟨hread, hremove, -⟩ :=
      (hfilters [⟨"Limit", .gt, .int 0⟩] nofun (by decide +kernel)).2 (Or.inr (Or.inl hlimit))
    exact ⟨hread, hremove⟩

end Gateway

end Gridbase
