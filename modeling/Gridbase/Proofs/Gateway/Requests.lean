import Gridbase.Proofs.Gateway.Operations
import Gridbase.Proofs.Gateway.Put
import Gridbase.Proofs.Statement.Tokens
import Gridbase.Proofs.Store.Filters
import Gridbase.Proofs.Store.Keywords

/-! # Requests of operations

    The requests that an operation may send, read off its arguments (`Operation.requests`).
    Which columns of a dataset are inserted is known only when the table is looked up, so the
    names of the generated columns are an argument of their own.

    An action stays WITHIN some requests (`Within`) if every query that it sends is the query
    of one of them, and every failure is a fault of one of them, or one that the database has no
    part in.  This is shown of single steps first, then of chains, and so of every operation
    (`within_action`), with valid names in all requests. -/

namespace Gridbase

open Gridbase.Text Gridbase.Session

/-! ## Requests -/

namespace Request

/-- Whether a database can do what is requested.  What it gives, and what it would
    leave, does not matter here. -/
def answer (db : Database) : Request → Except StoreFault Unit
  | selection s => discard (db.select s)
  | change s => discard (db.execute s)

/-- The request fails with a fault in some database, which need not be the one of the
    session. -/
def FailsWith (r : Request) (fault : StoreFault) : Prop := ∃ db, r.answer db = .error fault

end Request

namespace Operation

/-- The requests that put a row under its key: a lookup, and one of two that follow it.
    Without a key there are none, as the row is refused before. -/
def putRequests (table : String) (row : Row) (key : String) : List Request :=
  match row.get? key with
  | none => []
  | some id =>
      [.selection (Gateway.lookup table key id),
        .change (.insert (Gateway.addition table row)),
        .change (.update (Gateway.change table key row id))]

/-- The requests that an operation may send, where columns with the given names are
    generated. -/
def requests (generated : List String) : Operation → List Request
  | createTable table columns key =>
      match Gateway.newTable table columns key with
      | .ok create => [.change (.createTable create)]
      | .error _ => []
  | createTableWith table columns =>
      [.change (.createTable { table := some table, ifNotExists := true, columns })]
  | createDesigned design => [.change (.createDesigned design)]
  | renameTable old new => [.change (.renameTable old new)]
  | dropTable table => [.change (.dropTable table)]
  | getAll table => [.selection { table := some table }]
  | getById table key id =>
      [.selection { table := some table, conditions := [Condition.is key id] }]
  | get table columns filters order =>
      [.selection { table := some table, columns, conditions := Filter.conditions filters, order }]
  | add table row => [.change (.insert (Gateway.addition table row))]
  | updateById table row key id => [.change (.update (Gateway.change table key row id))]
  | updateWhere table row filters => [.change (.update (Filter.change table row filters))]
  | deleteById table key id =>
      [.change (.delete { table := some table, conditions := [Condition.is key id] })]
  | deleteWhere table filters => [.change (.delete (Filter.removal table filters))]
  | upsert table row key => putRequests table row key
  | insertDataset _ data =>
      data.rows.map fun row => .change (.insert (Gateway.rowInsert data.table
        (data.names.filter fun name => !generated.any (sameName name)) row))
  | upsertDataset _ data key => data.rows.flatMap fun row => putRequests data.table row key
  | columnInfo _ | columnTypes _ => []

/-- The names of the generated columns that an operation learns from a database.  Only a
    bulk insertion asks for them. -/
def generatedIn (db : Database) : Operation → List String
  | insertDataset _ data =>
      match Catalog.liveColumns db data.table with
      | .ok infos => Gateway.generatedNames infos
      | .error _ => []
  | _ => []

end Operation

/-! ## Names of requests -/

/-- The rows of a dataset have no names but those of its columns. -/
theorem Dataset.names_rows_subset {d : Dataset} {row : Row} (h : row ∈ d.rows) :
    row.names ⊆ d.names := by
  obtain ⟨i, -, hi⟩ := List.mem_filterMap.mp h
  rw [row?] at hi
  split at hi
  · obtain rfl := Option.some.inj hi
    refine List.Subset.trans (Row.names_ofList_subset _) ?_
    intro name hname
    obtain ⟨p, hp, rfl⟩ := List.mem_map.mp hname
    obtain ⟨c, hc, hcp⟩ := List.mem_filterMap.mp hp
    obtain ⟨v, -, rfl⟩ := Option.map_eq_some_iff.mp hcp
    exact List.mem_map_of_mem hc
  · cases hi

namespace Operation

theorem mem_putRequests {table key : String} {row : Row} {r : Request}
    (h : r ∈ putRequests table row key) :
    ∃ id, r = .selection (Gateway.lookup table key id)
      ∨ r = .change (.insert (Gateway.addition table row))
      ∨ r = .change (.update (Gateway.change table key row id)) := by
  rw [putRequests] at h
  cases hid : row.get? key with
  | none =>
      rw [hid] at h
      exact absurd h List.not_mem_nil
  | some id =>
      rw [hid] at h
      simp only [List.mem_cons, List.not_mem_nil, or_false] at h
      exact ⟨id, h⟩

theorem names_putRequests {table key : String} {row : Row} {r : Request}
    (h : r ∈ putRequests table row key) : r.names ⊆ table :: (row.names ++ [key]) := by
  have hkey : [table, key, key] ⊆ table :: (row.names ++ [key]) := by simp
  have hrow : table :: row.names ⊆ table :: (row.names ++ [key]) :=
    List.cons_subset_cons _ (List.subset_append_left ..)
  obtain ⟨id, rfl | rfl | rfl⟩ := mem_putRequests h
  · exact hkey
  · exact hrow
  · exact List.Subset.refl _

theorem names_get (table : String) (columns : List String) (filters : List Filter)
    (order : List OrderTerm) :
    (Request.selection
      { table := some table, columns, conditions := Filter.conditions filters, order }).names
        = (get table columns filters order).names := by
  show [table] ++ columns ++ (Filter.conditions filters).map Condition.column
    ++ order.map OrderTerm.column = _
  rw [Filter.column_conditions, List.append_assoc, List.append_assoc]
  rfl

theorem names_updateWhere (table : String) (row : Row) (filters : List Filter) :
    (Request.change (.update (Filter.change table row filters))).names
      = (updateWhere table row filters).names := by
  show [table] ++ row.names ++ (Filter.conditions filters).map Condition.column = _
  rw [Filter.column_conditions, List.append_assoc]
  rfl

theorem names_deleteWhere (table : String) (filters : List Filter) :
    (Request.change (.delete (Filter.removal table filters))).names
      = (deleteWhere table filters).names := by
  show [table] ++ (Filter.conditions filters).map Condition.column = _
  rw [Filter.column_conditions]
  rfl

/-- The new table has the columns that are asked for. -/
theorem names_newTable {table : String} {columns : List (String × StorageClass)}
    {key : Option String} {create : CreateTable}
    (h : Gateway.newTable table columns key = .ok create) :
    (Request.change (.createTable create)).names = table :: columns.map Prod.fst := by
  obtain ⟨_, -, h⟩ := bind_eq_ok.mp h
  obtain ⟨_, -, h⟩ := bind_eq_ok.mp h
  obtain ⟨_, -, h⟩ := bind_eq_ok.mp h
  obtain ⟨key', -, h⟩ := bind_eq_ok.mp h
  obtain rfl := Except.ok.inj h
  simp [Request.names, Gateway.keyedClause]

theorem mem_requests_createTable {generated : List String} {table : String}
    {columns : List (String × StorageClass)} {key : Option String} {r : Request}
    (h : r ∈ (createTable table columns key).requests generated) :
    ∃ create, Gateway.newTable table columns key = .ok create
      ∧ r = .change (.createTable create) := by
  rw [requests] at h
  cases hnew : Gateway.newTable table columns key with
  | error f =>
      rw [hnew] at h
      exact absurd h List.not_mem_nil
  | ok create =>
      rw [hnew] at h
      exact ⟨create, rfl, List.mem_singleton.mp h⟩

/-- **REQUESTS HAVE NO NAMES** but those of the operation.  What introspection reports
    as generated can only take names away. -/
theorem names_requests {generated : List String} {op : Operation} {r : Request}
    (h : r ∈ op.requests generated) : r.names ⊆ op.names := by
  -- only the two bulk operations have requests that the data decide
  cases op with
  | createTable table columns key =>
      obtain ⟨create, hnew, rfl⟩ := mem_requests_createTable h
      rw [names_newTable hnew]
      exact List.cons_subset_cons _ (List.subset_append_left ..)
  | createTableWith table columns | createDesigned design | renameTable old new | dropTable table
  | getAll table | getById table key id | deleteById table key id | add table row
  | updateById table row key id =>
      rw [List.mem_singleton.mp h]
      exact List.Subset.refl _
  | get table columns filters order =>
      rw [List.mem_singleton.mp h, names_get]
      exact List.Subset.refl _
  | updateWhere table row filters =>
      rw [List.mem_singleton.mp h, names_updateWhere]
      exact List.Subset.refl _
  | deleteWhere table filters =>
      rw [List.mem_singleton.mp h, names_deleteWhere]
      exact List.Subset.refl _
  | upsert table row key => exact names_putRequests h
  | insertDataset watch data =>
      obtain ⟨row, -, rfl⟩ := List.mem_map.mp h
      exact List.cons_subset_cons _ (List.filter_subset_self _)
  | upsertDataset watch data key =>
      obtain ⟨row, hrow, hr⟩ := List.mem_flatMap.mp h
      refine List.Subset.trans (names_putRequests hr) (List.cons_subset_cons _ ?_)
      refine List.append_subset.mpr ⟨?_, ?_⟩
      · exact List.Subset.trans (Dataset.names_rows_subset hrow) (List.subset_cons_self ..)
      · exact List.cons_subset.mpr ⟨List.mem_cons_self .., List.nil_subset _⟩
  | columnInfo table | columnTypes table => exact absurd h List.not_mem_nil

end Operation

/-! ## Actions that stay within requests -/

namespace Gateway

/-- A failure that no statement has a part in: the database has reported nothing, or the
    catalog knows no table, or there is no connection. -/
def Own (g : Gateway) (f : Failure) : Prop :=
  f.reported? = none ∨ (∃ table, f = Catalog.notFound table) ∨ g.checkAddress = .error f

/-- A run of an action sends queries of some requests only, and fails only on its own or with
    a fault of one of these. -/
structure Within {α : Type} (g : Gateway) (R : Request → Prop) (x : Action α) (s : Session) :
    Prop where
  sent : ∃ new, (x.run s).2.sent = s.sent ++ new ∧ ∀ q ∈ new, ∃ r, R r ∧ r.build = .ok q
  failed : ∀ f, (x.run s).1 = .error f →
    Own g f ∨ ∃ r fault, R r ∧ r.FailsWith fault ∧ f = fault.toFailure

section

variable {α β : Type} {g : Gateway} {R : Request → Prop} {x : Action α} {k : α → Action β}
  {s s' : Session}

theorem Own.of_validation {f : Failure} (h : f.kind = .validation) : Own g f := by
  cases f with
  | validation | unsupportedType => exact Or.inl rfl
  | _ => exact nomatch h

theorem Own.of_refusal {check : Except Failure α} (hrefusal : Refusal check) {f : Failure}
    (h : check = .error f) : Own g f := .of_validation (hrefusal f h)

theorem own_checkpoint {requested : Bool} {f : Failure} (h : checkpoint requested = .error f) :
    Own g f := by
  cases requested with
  | true =>
      obtain rfl := Except.error.inj h
      exact Or.inl rfl
  | false => exact nomatch h

/-! ### Steps -/

/-- A result that leaves the session alone. -/
theorem within_still {result : Except Failure α} (hrun : x.run s = (result, s))
    (hown : ∀ f, result = .error f → Own g f) : Within g R x s where
  sent := by
    rw [hrun]
    exact ⟨[], (List.append_nil _).symm, List.forall_mem_nil _⟩
  failed f hf := by
    rw [hrun] at hf
    exact Or.inl (hown f hf)

theorem within_pure {a : α} : Within g R (pure a) s := within_still rfl nofun

/-- A failure of its own that leaves the session alone. -/
theorem within_failure {f : Failure} (hrun : x.run s = (.error f, s)) (hown : Own g f) :
    Within g R x s :=
  within_still hrun (by rintro _ ⟨⟩; exact hown)

theorem within_of_refuses (h : Refuses x) : Within g R x s := by
  obtain ⟨f, hf, hrun⟩ := h
  exact within_failure (hrun s) (.of_validation hf)

/-- The query of a request is sent, and its fault may come back. -/
theorem within_sending {r : Request} (hr : R r) {q : Query} (hbuild : r.build = .ok q)
    {result : Except Failure α} {db : Database} (hrun : x.run s = (result, s.sending q db))
    (hfault : ∀ f, result = .error f → ∃ fault, r.FailsWith fault ∧ f = fault.toFailure) :
    Within g R x s where
  sent := by
    rw [hrun]
    refine ⟨[q], rfl, List.forall_mem_singleton.mpr ⟨r, hr, hbuild⟩⟩
  failed f hf := by
    rw [hrun] at hf
    obtain ⟨fault, hfails, hsame⟩ := hfault f hf
    exact Or.inr ⟨r, fault, hr, hfails, hsame⟩

/-- Sending a statement stays within requests that allow it. -/
theorem within_send {statement : Statement} (hr : R (.change statement)) :
    Within g R (send statement) s := by
  -- not completed, refused by the database, or carried out
  cases hbuild : statement.build .sqlite with
  | error cause =>
      have hrun : (send statement).run s = (.error (.configuration cause), s) := by
        rw [send, hbuild]
        rfl
      exact within_failure hrun (Or.inl rfl)
  | ok q =>
      have hrun := run_send hbuild s
      cases hexecute : s.database.execute statement with
      | ok result =>
          rw [hexecute] at hrun
          exact within_sending hr hbuild hrun (by rintro _ ⟨⟩)
      | error fault =>
          rw [hexecute] at hrun
          refine within_sending hr hbuild hrun ?_
          rintro f ⟨⟩
          exact ⟨fault, ⟨s.database, by rw [Request.answer, hexecute]; rfl⟩, rfl⟩

theorem within_ask {select : Select} (hr : R (.selection select)) : Within g R (ask select) s := by
  cases hbuild : select.build .sqlite with
  | error cause =>
      have hrun : (ask select).run s = (.error (.configuration cause), s) := by
        rw [ask, hbuild]
        rfl
      exact within_failure hrun (Or.inl rfl)
  | ok q =>
      have hrun := run_ask hbuild s
      cases hselect : s.database.select select with
      | ok rows =>
          rw [hselect] at hrun
          exact within_sending hr hbuild hrun (by rintro _ ⟨⟩)
      | error fault =>
          rw [hselect] at hrun
          refine within_sending hr hbuild hrun ?_
          rintro f ⟨⟩
          exact ⟨fault, ⟨s.database, by rw [Request.answer, hselect]; rfl⟩, rfl⟩

/-! ### Chains -/

/-- **A CHAIN STAYS WITHIN** what its steps stay within.  What the first step gives may
    decide what the second one asks for, so the second bound is for every result of the
    first. -/
theorem within_bind (hx : Within g R x s)
    (hk : ∀ a s₁, x.run s = (.ok a, s₁) → Within g R (k a) s₁) : Within g R (x >>= k) s := by
  obtain ⟨first, hfirst, hqueries⟩ := hx.sent
  cases hrun : x.run s with
  | mk result s₁ =>
      have hchain := run_bind x k s
      rw [hrun] at hchain hfirst
      -- a failure ends the chain; otherwise what the second part sends comes behind
      cases result with
      | error f =>
          refine ⟨⟨first, ?_, hqueries⟩, fun f' hf => hx.failed f' ?_⟩
          · rw [hchain]
            exact hfirst
          · rw [hchain] at hf
            rw [hrun]
            cases hf
            rfl
      | ok a =>
          obtain ⟨⟨more, hmore, hothers⟩, hfailed⟩ := hk a s₁ hrun
          refine ⟨⟨first ++ more, ?_, List.forall_mem_append.mpr ⟨hqueries, hothers⟩⟩, ?_⟩
          · rw [hchain]
            exact hmore.trans (by rw [hfirst, List.append_assoc])
          · rw [hchain]
            exact hfailed

/-- A check before a chain. -/
theorem within_check {check : Except Failure α} (hown : ∀ f, check = .error f → Own g f)
    (hk : ∀ a, check = .ok a → Within g R (k a) s) : Within g R (require check >>= k) s := by
  refine within_bind (within_still (run_require check s) hown) fun a s₁ hrun => ?_
  rw [run_require] at hrun
  obtain ⟨hcheck, rfl⟩ := Prod.mk.inj hrun
  exact hk a hcheck

/-- A check of what was given before a chain. -/
theorem within_refusal {check : Except Failure α} (hrefusal : Refusal check)
    (hk : ∀ a, check = .ok a → Within g R (k a) s) : Within g R (require check >>= k) s :=
  within_check (fun _ => Own.of_refusal hrefusal) hk

theorem within_discard (hx : Within g R x s) : Within g R (discard x) s :=
  within_bind hx fun _ _ _ => within_pure

theorem within_mono {R' : Request → Prop} (hR : ∀ r, R r → R' r) (h : Within g R x s) :
    Within g R' x s where
  sent := by
    obtain ⟨new, hnew, hqueries⟩ := h.sent
    refine ⟨new, hnew, fun q hq => ?_⟩
    obtain ⟨r, hr, hbuild⟩ := hqueries q hq
    exact ⟨r, hR r hr, hbuild⟩
  failed f hf := by
    rcases h.failed f hf with hown | ⟨r, fault, hr, hfails⟩
    · exact Or.inl hown
    · exact Or.inr ⟨r, fault, hR r hr, hfails⟩

/-- A statement over a connection of its own. -/
theorem within_run {statement : Statement} (hr : R (.change statement)) :
    Within g R (g.run statement) s := by
  cases haddress : g.checkAddress with
  | ok u =>
      rw [run_eq_send haddress]
      exact within_send hr
  | error f =>
      rw [run, haddress]
      cases statement.build .sqlite with
      | error cause =>
          have hown : Own g (.configuration cause) := Or.inl rfl
          exact within_failure rfl hown
      | ok q => exact within_failure rfl (Or.inr (Or.inr haddress))

/-- A selection over a connection of its own. -/
theorem within_query {select : Select} (hr : R (.selection select)) :
    Within g R (g.query select) s := by
  cases haddress : g.checkAddress with
  | ok u =>
      rw [query_eq_ask haddress]
      exact within_ask hr
  | error f =>
      rw [query, haddress]
      cases select.build .sqlite with
      | error cause =>
          have hown : Own g (.configuration cause) := Or.inl rfl
          exact within_failure rfl hown
      | ok q => exact within_failure rfl (Or.inr (Or.inr haddress))

/-! ### Rows -/

theorem within_put {table key : String} {row : Row}
    (hR : ∀ r ∈ Operation.putRequests table row key, R r) : Within g R (put table row key) s := by
  rw [put]
  rw [Operation.putRequests] at hR
  cases hid : row.get? key with
  | none =>
      exact within_failure rfl (Or.inl rfl)
  | some id =>
      rw [hid] at hR
      obtain ⟨hlookup, hR⟩ := List.forall_mem_cons.mp hR
      obtain ⟨haddition, hR⟩ := List.forall_mem_cons.mp hR
      have hchange := List.forall_mem_singleton.mp hR
      refine within_bind (within_ask hlookup) fun found s₁ _ => ?_
      split
      · exact within_bind (within_discard (within_send haddition)) fun _ _ _ => within_pure
      · exact within_bind (within_discard (within_send hchange)) fun _ _ _ => within_pure

/-- **ROWS ARE PUT** one by one, each within its own requests. -/
theorem within_putRows {w : Watch} {table key : String} {rows : List Row}
    (hR : ∀ row ∈ rows, ∀ r ∈ Operation.putRequests table row key, R r) :
    ∀ (i : Nat) (t : Tally) (s : Session), Within g R (putRows w table key i rows t) s := by
  induction rows with
  | nil => intro i t s; exact within_pure
  | cons row rows ih =>
      intro i t s
      obtain ⟨hrow, hrows⟩ := List.forall_mem_cons.mp hR
      rw [putRows]
      refine within_check (fun _ => own_checkpoint) fun _ _ => ?_
      exact within_bind (within_put hrow) fun outcome s₁ _ => ih hrows _ _ _

/-- **ROWS ARE INSERTED** one by one, each by its own request. -/
theorem within_insertRows {w : Watch} {table : String} {columns : List String} {rows : List Row}
    (hR : ∀ row ∈ rows, R (.change (.insert (rowInsert table columns row)))) :
    ∀ (i : Nat) (s : Session), Within g R (insertRows w table columns i rows) s := by
  induction rows with
  | nil => intro i s; exact within_pure
  | cons row rows ih =>
      intro i s
      obtain ⟨hrow, hrows⟩ := List.forall_mem_cons.mp hR
      rw [insertRows]
      refine within_check (fun _ => own_checkpoint) fun _ _ => ?_
      refine within_bind (within_send hrow) fun written s₁ _ => ?_
      exact within_bind (ih hrows _ _) fun _ _ _ => within_pure

end

/-! ## Operations stay within their requests -/

/-- The catalog fails for want of the table only. -/
theorem eq_notFound_of_liveColumns {db : Database} {table : String} {f : Failure}
    (h : Catalog.liveColumns db table = .error f) : f = Catalog.notFound table := by
  rw [Catalog.liveColumns, Catalog.columns] at h
  cases hreach : db.reachable? table with
  | some t =>
      rw [hreach] at h
      cases h
  | none =>
      rw [hreach] at h
      exact (Except.error.inj h).symm

theorem own_liveColumns {g : Gateway} {db : Database} {table : String} {f : Failure}
    (h : Catalog.liveColumns db table = .error f) : Own g f :=
  Or.inr (Or.inl ⟨table, eq_notFound_of_liveColumns h⟩)

theorem within_columnsOf {g : Gateway} {R : Request → Prop} (table : String) (s : Session) :
    Within g R (columnsOf table) s :=
  within_still (run_require _ _) fun _ => own_liveColumns

theorem within_columnInfo {g : Gateway} {R : Request → Prop} (table : String) (s : Session) :
    Within g R (g.columnInfo table) s := by
  refine within_refusal (refusal_checkTable _) fun _ _ => ?_
  refine within_check (fun _ h => Or.inr (Or.inr h)) fun _ _ => ?_
  exact within_columnsOf table s

/-- The insertion of a dataset is within the requests for the columns that the table does not
    generate, and their names are valid. -/
theorem within_insertDataset (g : Gateway) (w : Watch) (d : Dataset) (s : Session) :
    Within g (fun r => r ∈ (Operation.insertDataset w d).requests
        ((Operation.insertDataset w d).generatedIn s.database) ∧ r.Named)
      (g.insertDataset w d) s := by
  refine within_refusal (refusal_checkTable _) fun _ htable => ?_
  refine within_check (fun _ => own_checkpoint) fun _ _ => ?_
  refine within_check (fun _ h => Or.inr (Or.inr h)) fun _ _ => ?_
  refine within_bind (within_columnsOf _ _) fun infos s₁ hrun => ?_
  obtain ⟨hinfos, rfl⟩ := Prod.mk.inj ((run_require _ _).symm.trans hrun)
  refine within_refusal (refusal_insertableColumns _ _) fun columns hcolumns => ?_
  obtain ⟨written, hwritten, h⟩ := bind_eq_ok.mp hcolumns
  obtain ⟨_, -, h⟩ := bind_eq_ok.mp h
  obtain rfl := Except.ok.inj h
  refine within_insertRows (fun row hrow => ⟨?_, ?_⟩) 0 s
  · rw [Operation.requests, Operation.generatedIn, hinfos, writtenColumns_eq_ok hwritten]
    exact List.mem_map_of_mem hrow
  · exact List.forall_mem_cons.mpr ⟨checkTable_eq_ok.mp htable, valid_of_writtenColumns hwritten⟩

/-- Any other operation is within its requests.  A read, an insertion, a change and a
    removal each make one request, and putting a row makes three at most. -/
theorem within_requests (g : Gateway) (op : Operation) (s : Session)
    (h : ∀ w d, op ≠ .insertDataset w d) (generated : List String) :
    Within g (· ∈ op.requests generated) (op.action g) s := by
  have hself {r : Request} : r ∈ [r] := List.mem_singleton_self r
  -- behind its checks, each operation sends what `requests` lists for it
  cases op with
  | createTable table columns key =>
      refine within_refusal (refusal_newTable table columns key) fun create hcreate => ?_
      refine within_discard (within_run ?_)
      rw [Operation.requests, hcreate]
      exact hself
  | createTableWith table columns =>
      refine within_refusal (refusal_checkTable _) fun _ _ => ?_
      refine within_refusal (refusal_checkSome _ _) fun _ _ => ?_
      refine within_refusal (refusal_checkColumns _) fun _ _ => ?_
      exact within_discard (within_run hself)
  | createDesigned design =>
      refine within_refusal (refusal_validate _) fun _ _ => ?_
      exact within_discard (within_run hself)
  | renameTable old new =>
      refine within_refusal (refusal_checkTable _) fun _ _ => ?_
      refine within_refusal (refusal_checkTable _) fun _ _ => ?_
      exact within_discard (within_run hself)
  | dropTable table =>
      refine within_refusal (refusal_checkTable _) fun _ _ => ?_
      exact within_discard (within_run hself)
  | getAll table =>
      refine within_refusal (refusal_checkTable _) fun _ _ => ?_
      exact within_query hself
  | getById table key id =>
      refine within_refusal (refusal_checkTable _) fun _ _ => ?_
      refine within_refusal (refusal_checkColumn _) fun _ _ => ?_
      exact within_bind (within_query hself) fun _ _ _ => within_pure
  | get table columns filters order =>
      refine within_refusal (refusal_checkTable _) fun _ _ => ?_
      refine within_refusal (refusal_checkColumns _) fun _ _ => ?_
      refine within_refusal (refusal_checkColumns _) fun _ _ => ?_
      refine within_refusal (refusal_checkColumns _) fun _ _ => ?_
      exact within_query hself
  | add table row =>
      refine within_refusal (refusal_checkTable _) fun _ _ => ?_
      refine within_refusal (refusal_checkRow _) fun _ _ => ?_
      exact within_run hself
  | updateById table row key id =>
      refine within_refusal (refusal_checkTable _) fun _ _ => ?_
      refine within_refusal (refusal_checkRow _) fun _ _ => ?_
      refine within_refusal (refusal_checkColumn _) fun _ _ => ?_
      exact within_run hself
  | updateWhere table row filters =>
      refine within_refusal (refusal_checkTable _) fun _ _ => ?_
      refine within_refusal (refusal_checkRow _) fun _ _ => ?_
      refine within_refusal (refusal_checkSome _ _) fun _ _ => ?_
      refine within_refusal (refusal_checkColumns _) fun _ _ => ?_
      exact within_run hself
  | deleteById table key id =>
      refine within_refusal (refusal_checkTable _) fun _ _ => ?_
      refine within_refusal (refusal_checkColumn _) fun _ _ => ?_
      exact within_run hself
  | deleteWhere table filters =>
      refine within_refusal (refusal_checkTable _) fun _ _ => ?_
      refine within_refusal (refusal_checkSome _ _) fun _ _ => ?_
      refine within_refusal (refusal_checkColumns _) fun _ _ => ?_
      exact within_run hself
  | upsert table row key =>
      refine within_refusal (refusal_checkTable _) fun _ _ => ?_
      refine within_refusal (refusal_checkRow _) fun _ _ => ?_
      refine within_refusal (refusal_checkColumn _) fun _ _ => ?_
      refine within_check (fun _ h => Or.inr (Or.inr h)) fun _ _ => ?_
      exact within_put fun _ hr => hr
  | insertDataset watch data => exact absurd rfl (h watch data)
  | upsertDataset watch data key =>
      refine within_refusal (refusal_checkTable _) fun _ _ => ?_
      refine within_refusal (refusal_checkColumn _) fun _ _ => ?_
      refine within_refusal (refusal_checkKey _ _) fun _ _ => ?_
      refine within_refusal (refusal_checkColumns _) fun _ _ => ?_
      refine within_check (fun _ => own_checkpoint) fun _ _ => ?_
      refine within_check (fun _ h => Or.inr (Or.inr h)) fun _ _ => ?_
      exact within_putRows (fun row hrow r hr => List.mem_flatMap.mpr ⟨row, hrow, hr⟩) _ _ _
  | columnInfo table => exact within_columnInfo table s
  | columnTypes table => exact within_bind (within_columnInfo table s) fun _ _ _ => within_pure

/-- **AN OPERATION STAYS WITHIN ITS REQUESTS**, and all names in these are valid.  The
    order of the requests is not followed: what matters is which of them can occur at
    all. -/
theorem within_action (g : Gateway) (op : Operation) (s : Session) :
    Within g (fun r => r ∈ op.requests (op.generatedIn s.database) ∧ r.Named) (op.action g) s := by
  by_cases hdata : ∃ w d, op = .insertDataset w d
  · obtain ⟨w, d, rfl⟩ := hdata
    exact within_insertDataset g w d s
  · have hop : ∀ w d, op ≠ .insertDataset w d := fun w d h => hdata ⟨w, d, h⟩
    rcases checked_action g op hop with hnames | hrefuses
    · refine within_mono (fun r hr => ⟨hr, ?_⟩) (within_requests g op s hop _)
      exact fun name hname => hnames name (Operation.names_requests hr hname)
    · exact within_of_refuses hrefuses

end Gateway

end Gridbase
