import Gridbase.Proofs.Gateway.Requests

/-! # Completed statements

    A statement cannot be completed without a part that it needs.  The checks of an operation
    see to it that no operation ever hands such a statement over.

    * A request is COMPLETE if it has a table, its names are not blank, and it has the values,
      assignments or columns that it is made of (`Request.Complete`); a complete request has a
      query (`Request.Complete.exists_query`).
    * An action is SOUND if it never fails because a statement is incomplete; only the source
      of connections may tell of such a failure, as its own (`Gateway.Sound`).  A chain of sound
      steps is sound, and so are the bulk writes, by induction on the rows.
    * An operation COMPLETES its requests if it is sound, and fails at a check unless all of
      them are complete (`Gateway.Completes`).  Each check of an operation is passed in turn;
      what they have let through is enough for the requests behind them. -/

namespace Gridbase

open Gridbase.Text Gridbase.Session

/-! ## Complete requests -/

namespace Request

/-- The table of a request.  Only statements that are made by calls may be without one.
    -/
def table? : Request → Option String
  | selection s => s.table
  | change (.insert s) => s.table
  | change (.update s) => s.table
  | change (.delete s) => s.table
  | change (.createTable s) => s.table
  | change (.createDesigned t) => some t.tableName
  | change (.renameTable old _) => some old
  | change (.dropTable table) => some table

/-- The request has what it is made of: a value for each of its columns, assignments, or the
    columns of a new table. -/
def Filled : Request → Prop
  | change (.insert s) => s.values ≠ [] ∧ s.columns.length = s.values.length
  | change (.update s) => s.assignments ≠ []
  | change (.createTable s) => s.columns ≠ []
  | change (.createDesigned t) => t.columns ≠ []
  | selection _ | change (.delete _) | change (.renameTable ..) | change (.dropTable _) => True

/-- The request has all that it needs: a table, names that are not blank, and what its
    kind cannot be without. -/
structure Complete (r : Request) : Prop where
  table : ∃ name, r.table? = some name ∧ name ≠ ""
  named : ∀ name ∈ r.names, allBlank name = false
  filled : r.Filled

theorem mem_names_of_table? {r : Request} {name : String} (h : r.table? = some name) :
    name ∈ r.names := by
  have hfirst {rest more : List String} {table : Option String} (h : table = some name) :
      name ∈ table.toList ++ rest ++ more :=
    List.mem_append_left _ (List.mem_append_left _ (Option.mem_toList.mpr h))
  rcases r with s | s
  · exact List.mem_append_left _ (hfirst h)
  · cases s with
    | update s => exact hfirst h
    | insert s | delete s | createTable s => exact List.mem_append_left _ (Option.mem_toList.mpr h)
    | createDesigned t | renameTable old new | dropTable table =>
        obtain rfl := Option.some.inj h
        exact List.mem_cons_self ..

/-- Valid names are not blank, nor is that of the table. -/
theorem Complete.of_named {r : Request} {table : String} (hnamed : r.Named)
    (htable : r.table? = some table) (hfilled : r.Filled) : r.Complete where
  table := by
    refine ⟨table, htable, ?_⟩
    rintro rfl
    exact Identifier.toList_ne_nil (hnamed _ (mem_names_of_table? htable)) rfl
  named name hname := Identifier.allBlank_of_isValid (hnamed name hname)
  filled := hfilled

/-- **A COMPLETE REQUEST** has a query. -/
theorem Complete.exists_query {r : Request} (h : r.Complete) : ∃ q, r.build = .ok q := by
  obtain ⟨⟨table, htable, hne⟩, hnamed, hfilled⟩ := h
  have hgiven {given : Option String} (missing : Incomplete) (h : given = some table) :
      givenTable given missing = .ok table := h ▸ givenTable_of_ne hne missing
  rcases r with s | s
  · exact ⟨_, Select.build_of_given (hgiven _ htable)⟩
  · cases s with
    | insert s => exact ⟨_, Insert.build_of_given (hgiven _ htable) hfilled.1 hfilled.2⟩
    | update s => exact ⟨_, Update.build_of_given (hgiven _ htable) hfilled⟩
    | delete s => exact ⟨_, Delete.build_of_given (hgiven _ htable)⟩
    | createTable s =>
        refine ⟨_, CreateTable.build_of_given (hgiven _ htable) hfilled fun c hc => ?_⟩
        exact hnamed c.name (List.mem_append_right _ (List.mem_map_of_mem hc))
    | createDesigned t | renameTable old new | dropTable table => exact ⟨_, rfl⟩

end Request

namespace Gateway

/-! ## Checks -/

/-- A failure of a check: what was given is refused, or cancellation has been requested, or the
    table is not in the catalog, or there is no connection. -/
inductive CheckFault (g : Gateway) : Failure → Prop
  | refusal {f : Failure} (h : f.kind = .validation) : CheckFault g f
  | cancelled : CheckFault g .cancelled
  | unknownTable (table : String) : CheckFault g (Catalog.notFound table)
  | unreachable {f : Failure} (h : g.checkAddress = .error f) : CheckFault g f

/-- No check tells of an incomplete statement; only the source of connections can, as its own
    failure. -/
theorem CheckFault.address {g : Gateway} {cause : Incomplete}
    (h : CheckFault g (.configuration cause)) : g.address = .error (.configuration cause) := by
  generalize hf : Failure.configuration cause = f at h
  cases h with
  | refusal hkind =>
      subst hf
      cases hkind
  | cancelled | unknownTable => cases hf
  | unreachable h =>
      subst hf
      rw [checkAddress] at h
      split at h
      · rename_i f haddress
        rw [haddress, Except.error.inj h]
      · split at h <;> cases h

theorem checkFault_checkpoint {g : Gateway} {requested : Bool} (f : Failure)
    (h : checkpoint requested = .error f) : CheckFault g f := by
  cases requested with
  | true =>
      cases h
      exact .cancelled
  | false => cases h

theorem checkFault_liveColumns {g : Gateway} {db : Database} {table : String} (f : Failure)
    (h : Catalog.liveColumns db table = .error f) : CheckFault g f := by
  rw [eq_notFound_of_liveColumns h]
  exact .unknownTable table

/-! ## Sound actions -/

/-- The run does not fail because a statement is incomplete, unless the source of connections
    gives that failure itself. -/
def Sound {α : Type} (g : Gateway) (x : Action α) (s : Session) : Prop :=
  ∀ cause, (x.run s).1 = .error (.configuration cause) →
    g.address = .error (.configuration cause)

section

variable {α β : Type} {g : Gateway} {x : Action α} {k : α → Action β} {s : Session}

theorem sound_pure (a : α) : Sound g (pure a) s := nofun

/-- **A CHAIN IS SOUND** if its steps are. -/
theorem Sound.bind (hx : Sound g x s)
    (hk : ∀ a s₁, x.run s = (.ok a, s₁) → Sound g (k a) s₁) : Sound g (x >>= k) s := by
  intro cause h
  rw [run_bind] at h
  rcases hrun : x.run s with ⟨f | a, s₁⟩
  · rw [hrun] at h
    obtain rfl := Except.error.inj h
    exact hx cause (by rw [hrun])
  · rw [hrun] at h
    exact hk a s₁ hrun cause h

theorem Sound.discard (hx : Sound g x s) : Sound g (discard x) s :=
  hx.bind fun _ _ _ => sound_pure ()

/-- A step that leaves the session alone fails only for what a check looks at. -/
theorem sound_still {result : Except Failure α} (hrun : x.run s = (result, s))
    (hfault : ∀ f, result = .error f → CheckFault g f) : Sound g x s := by
  intro cause h
  rw [hrun] at h
  exact (hfault _ h).address

theorem Sound.check {check : Except Failure β} {k : β → Action α}
    (hfault : ∀ f, check = .error f → CheckFault g f)
    (hk : ∀ b, check = .ok b → Sound g (k b) s) : Sound g (require check >>= k) s := by
  refine (sound_still (run_require check s) hfault).bind fun b s₁ hrun => ?_
  rw [run_require] at hrun
  obtain ⟨hb, rfl⟩ := Prod.mk.inj hrun
  exact hk b hb

/-- What the database reports is no incomplete statement. -/
theorem toFailure_ne_configuration (fault : StoreFault) (cause : Incomplete) :
    fault.toFailure ≠ .configuration cause := by
  intro h
  have hreported := fault.reported?_toFailure
  rw [h] at hreported
  cases hreported

theorem sound_send {statement : Statement} (h : (Request.change statement).Complete) :
    Sound g (send statement) s := by
  obtain ⟨q, hq⟩ := h.exists_query
  intro cause hrun
  rw [run_send hq] at hrun
  cases hexecute : s.database.execute statement with
  | ok result =>
      rw [hexecute] at hrun
      cases hrun
  | error fault =>
      rw [hexecute] at hrun
      exact absurd (Except.error.inj hrun) (toFailure_ne_configuration fault cause)

theorem sound_ask {select : Select} (h : (Request.selection select).Complete) :
    Sound g (ask select) s := by
  obtain ⟨q, hq⟩ := h.exists_query
  intro cause hrun
  rw [run_ask hq] at hrun
  cases hselect : s.database.select select with
  | ok rows =>
      rw [hselect] at hrun
      cases hrun
  | error fault =>
      rw [hselect] at hrun
      exact absurd (Except.error.inj hrun) (toFailure_ne_configuration fault cause)

/-- A complete statement over a connection of its own. -/
theorem sound_run {statement : Statement} (h : (Request.change statement).Complete) :
    Sound g (g.run statement) s := by
  cases haddress : g.checkAddress with
  | ok u =>
      rw [run_eq_send haddress]
      exact sound_send h
  | error f =>
      obtain ⟨q, hq⟩ := h.exists_query
      have hrun : g.run statement = require g.checkAddress >>= fun _ => execute statement q := by
        rw [run, show statement.build .sqlite = .ok q from hq]
        rfl
      rw [hrun]
      refine .check (fun _ => .unreachable) fun b hb => ?_
      rw [haddress] at hb
      cases hb

theorem sound_query {select : Select} (h : (Request.selection select).Complete) :
    Sound g (g.query select) s := by
  cases haddress : g.checkAddress with
  | ok u =>
      rw [query_eq_ask haddress]
      exact sound_ask h
  | error f =>
      obtain ⟨q, hq⟩ := h.exists_query
      have hrun : g.query select = require g.checkAddress >>= fun _ => fetch select q := by
        rw [query, show select.build .sqlite = .ok q from hq]
        rfl
      rw [hrun]
      refine .check (fun _ => .unreachable) fun b hb => ?_
      rw [haddress] at hb
      cases hb

/-! ### Rows -/

theorem sound_put {table key : String} {row : Row}
    (h : ∀ r ∈ Operation.putRequests table row key, r.Complete) :
    Sound g (put table row key) s := by
  rw [put]
  rw [Operation.putRequests] at h
  -- without a key value nothing is sent; with one, the lookup and one of two changes
  cases hid : row.get? key with
  | none =>
      intro cause hfails
      cases hfails
  | some id =>
      rw [hid] at h
      obtain ⟨hlookup, h⟩ := List.forall_mem_cons.mp h
      obtain ⟨haddition, h⟩ := List.forall_mem_cons.mp h
      have hchange := List.forall_mem_singleton.mp h
      refine (sound_ask hlookup).bind fun found s₁ _ => ?_
      split
      · exact (sound_send haddition).discard.bind fun _ _ _ => sound_pure _
      · exact (sound_send hchange).discard.bind fun _ _ _ => sound_pure _

/-- **ROWS ARE PUT** one by one, by complete requests. -/
theorem sound_putRows {w : Watch} {table key : String} {rows : List Row}
    (h : ∀ row ∈ rows, ∀ r ∈ Operation.putRequests table row key, r.Complete) :
    ∀ (i : Nat) (t : Tally) (s : Session), Sound g (putRows w table key i rows t) s := by
  induction rows with
  | nil =>
      intro i t s
      exact sound_pure t
  | cons row rows ih =>
      intro i t s
      obtain ⟨hrow, hrows⟩ := List.forall_mem_cons.mp h
      rw [putRows]
      refine .check checkFault_checkpoint fun _ _ => ?_
      exact (sound_put hrow).bind fun outcome s₁ _ => ih hrows _ _ s₁

/-- **ROWS ARE INSERTED** one by one, by complete requests. -/
theorem sound_insertRows {w : Watch} {table : String} {columns : List String} {rows : List Row}
    (h : ∀ row ∈ rows, (Request.change (.insert (rowInsert table columns row))).Complete) :
    ∀ (i : Nat) (s : Session), Sound g (insertRows w table columns i rows) s := by
  induction rows with
  | nil =>
      intro i s
      exact sound_pure 0
  | cons row rows ih =>
      intro i s
      obtain ⟨hrow, hrows⟩ := List.forall_mem_cons.mp h
      rw [insertRows]
      refine .check checkFault_checkpoint fun _ _ => ?_
      refine (sound_send hrow).bind fun written s₁ _ => ?_
      exact (ih hrows _ s₁).bind fun _ _ _ => sound_pure _

end

/-! ## Operations complete their requests -/

/-- The run is sound, and unless all of the requests are complete, it fails at a check and
    leaves the session alone. -/
structure Completes {α : Type} (g : Gateway) (requests : List Request) (x : Action α)
    (s : Session) : Prop where
  reached : (∀ r ∈ requests, r.Complete) ∨ ∃ f, CheckFault g f ∧ x.run s = (.error f, s)
  sound : Sound g x s

section

variable {α β : Type} {g : Gateway} {requests : List Request} {x : Action α} {s : Session}

theorem completes_run {statement : Statement} (h : (Request.change statement).Complete) :
    Completes g [.change statement] (g.run statement) s where
  reached := Or.inl (List.forall_mem_singleton.mpr h)
  sound := sound_run h

theorem completes_query {select : Select} (h : (Request.selection select).Complete) :
    Completes g [.selection select] (g.query select) s where
  reached := Or.inl (List.forall_mem_singleton.mpr h)
  sound := sound_query h

theorem completes_of_refuses (h : Refuses x) : Completes g requests x s := by
  obtain ⟨f, hf, hrun⟩ := h
  refine ⟨Or.inr ⟨f, .refusal hf, hrun s⟩, ?_⟩
  rw [Sound, hrun]
  rintro cause ⟨⟩
  cases hf

/-- **A STEP THAT LEAVES THE SESSION ALONE** fails at a check, or lets the chain go on with its
    result. -/
theorem Completes.still {first : Action β} {result : Except Failure β} {k : β → Action α}
    (hrun : first.run s = (result, s)) (hfault : ∀ f, result = .error f → CheckFault g f)
    (hk : ∀ b, result = .ok b → Completes g requests (k b) s) :
    Completes g requests (first >>= k) s where
  reached := by
    rw [run_bind, hrun]
    cases hb : result with
    | error f => exact Or.inr ⟨f, hfault f hb, rfl⟩
    | ok b => exact (hk b hb).reached
  sound := by
    refine (sound_still hrun hfault).bind fun b s₁ hrun' => ?_
    obtain ⟨hb, rfl⟩ := Prod.mk.inj (hrun.symm.trans hrun')
    exact (hk b hb).sound

theorem Completes.check {check : Except Failure β} {k : β → Action α}
    (hfault : ∀ f, check = .error f → CheckFault g f)
    (hk : ∀ b, check = .ok b → Completes g requests (k b) s) :
    Completes g requests (require check >>= k) s :=
  .still (run_require check s) hfault hk

theorem Completes.refusal {check : Except Failure β} {k : β → Action α}
    (hcheck : Refusal check) (hk : ∀ b, check = .ok b → Completes g requests (k b) s) :
    Completes g requests (require check >>= k) s :=
  .check (fun f h => .refusal (hcheck f h)) hk

/-- What is made of a result does not matter. -/
theorem Completes.andThen {f : α → β} (hx : Completes g requests x s) :
    Completes g requests (x >>= fun a => pure (f a)) s where
  reached := by
    rcases hx.reached with hall | ⟨f, hfault, hf⟩
    · exact Or.inl hall
    · exact Or.inr ⟨f, hfault, by rw [run_bind, hf]⟩
  sound := hx.sound.bind fun a s₁ _ => sound_pure _

end

/-! ### Requests behind the checks -/

/-- A row with an entry fills its insertion. -/
theorem filled_addition (table : String) {row : Row} (h : row.entries ≠ []) :
    (Request.change (.insert (addition table row))).Filled := by
  constructor
  · show [] ++ row.entries.map Entry.value ≠ []
    simpa using h
  · show ([] ++ row.entries.map Entry.name).length = ([] ++ row.entries.map Entry.value).length
    simp

/-- A row that has the key fills the requests that put it there. -/
theorem complete_of_mem_putRequests {table key : String} {row : Row} {r : Request}
    (h : r ∈ Operation.putRequests table row key) (hnamed : r.Named) : r.Complete := by
  rw [Operation.putRequests] at h
  cases hid : row.get? key with
  | none =>
      rw [hid] at h
      exact absurd h List.not_mem_nil
  | some id =>
      have hentries := Row.entries_ne_nil hid
      rw [hid] at h
      simp only [List.mem_cons, List.not_mem_nil, or_false] at h
      rcases h with rfl | rfl | rfl
      · exact .of_named hnamed rfl trivial
      · exact .of_named hnamed rfl (filled_addition table hentries)
      · exact .of_named hnamed rfl hentries

/-- A new table has columns. -/
theorem complete_of_newTable {table : String} {columns : List (String × StorageClass)}
    {key : Option String} {create : CreateTable} (h : newTable table columns key = .ok create)
    (hnamed : (Request.change (.createTable create)).Named) :
    (Request.change (.createTable create)).Complete := by
  obtain ⟨_, -, h⟩ := bind_eq_ok.mp h
  obtain ⟨_, hsome, h⟩ := bind_eq_ok.mp h
  obtain ⟨_, -, h⟩ := bind_eq_ok.mp h
  obtain ⟨key', -, h⟩ := bind_eq_ok.mp h
  obtain rfl := Except.ok.inj h
  refine .of_named hnamed rfl ?_
  show columns.map _ ≠ []
  simpa using checkSome_eq_ok.mp hsome

/-- The insertion of a row has a value for each of the columns that are written. -/
theorem complete_rowInsert {table : String} {columns : List String} {row : Row}
    (htable : Dialect.sqlite.isValidName table = true) (hne : columns ≠ [])
    (hcolumns : ∀ name ∈ columns, Dialect.sqlite.isValidName name = true) :
    (Request.change (.insert (rowInsert table columns row))).Complete := by
  refine .of_named (List.forall_mem_cons.mpr ⟨htable, hcolumns⟩) rfl ⟨?_, ?_⟩
  · show columns.map _ ≠ []
    simpa using hne
  · exact (List.length_map _).symm

/-! ### All operations -/

/-- The insertion of a dataset has learnt which columns are written before it completes a
    request. -/
theorem completes_insertDataset (g : Gateway) (w : Watch) (d : Dataset) (s : Session) :
    Completes g ((Operation.insertDataset w d).requests
      ((Operation.insertDataset w d).generatedIn s.database)) (g.insertDataset w d) s := by
  refine .refusal (refusal_checkTable _) fun _ htable => ?_
  refine .check checkFault_checkpoint fun _ _ => ?_
  refine .check (fun _ => .unreachable) fun _ _ => ?_
  refine .still (run_require _ _) checkFault_liveColumns fun infos hinfos => ?_
  refine .refusal (refusal_insertableColumns _ _) fun columns hcolumns => ?_
  obtain ⟨written, hwritten, h⟩ := bind_eq_ok.mp hcolumns
  obtain ⟨_, hsome, h⟩ := bind_eq_ok.mp h
  obtain rfl := Except.ok.inj h
  -- valid columns and at least one of them: every insertion is complete
  have hrow (row : Row) : (Request.change (.insert (rowInsert d.table written row))).Complete :=
    complete_rowInsert (checkTable_eq_ok.mp htable) (checkSome_eq_ok.mp hsome)
      (valid_of_writtenColumns hwritten)
  refine ⟨Or.inl ?_, sound_insertRows (fun row _ => hrow row) 0 s⟩
  rw [Operation.requests, Operation.generatedIn, hinfos]
  refine List.forall_mem_map.mpr fun row _ => ?_
  rw [writtenColumns_eq_ok hwritten] at hrow
  exact hrow row

/-- Whoever asks for the columns of a table completes nothing. -/
theorem completes_columnInfo (g : Gateway) (table : String) (s : Session) :
    Completes g [] (g.columnInfo table) s := by
  refine .refusal (refusal_checkTable _) fun _ _ => ?_
  refine .check (fun _ => .unreachable) fun _ _ => ?_
  exact ⟨Or.inl (List.forall_mem_nil _), sound_still (run_require _ _) checkFault_liveColumns⟩

/-- Any other operation has checked all of its names.  The checks differ from operation
    to operation, but each of them checks its table and its columns before it sends
    anything. -/
theorem completes_requests (g : Gateway) (op : Operation) (s : Session)
    (h : ∀ w d, op ≠ .insertDataset w d) (generated : List String) :
    Completes g (op.requests generated) (op.action g) s := by
  -- either all names have been checked or the operation refuses before sending
  rcases checked_action g op h with hnames | hrefuses
  swap
  · exact completes_of_refuses hrefuses
  have hnamed : ∀ r ∈ op.requests generated, r.Named := fun r hr name hname =>
    hnames name (Operation.names_requests hr hname)
  have hself {r : Request} : r ∈ [r] := List.mem_singleton_self r
  -- each case goes through the checks of its operation in their order
  cases op with
  | createTable table columns key =>
      refine .refusal (refusal_newTable table columns key) fun create hcreate => ?_
      rw [Operation.requests, hcreate] at hnamed ⊢
      have hr := complete_of_newTable hcreate (hnamed _ hself)
      exact (completes_run hr).andThen
  | createTableWith table columns =>
      refine .refusal (refusal_checkTable _) fun _ _ => ?_
      refine .refusal (refusal_checkSome _ _) fun _ hsome => ?_
      refine .refusal (refusal_checkColumns _) fun _ _ => ?_
      exact (completes_run (.of_named (hnamed _ hself) rfl (checkSome_eq_ok.mp hsome))).andThen
  | createDesigned design =>
      refine .refusal (refusal_validate _) fun _ hvalid => ?_
      exact (completes_run (.of_named (hnamed _ hself) rfl
        (TableDesign.validate_eq_ok_iff.mp hvalid).nonempty)).andThen
  | renameTable old new =>
      refine .refusal (refusal_checkTable _) fun _ _ => ?_
      refine .refusal (refusal_checkTable _) fun _ _ => ?_
      exact (completes_run (.of_named (hnamed _ hself) rfl trivial)).andThen
  | dropTable table =>
      refine .refusal (refusal_checkTable _) fun _ _ => ?_
      exact (completes_run (.of_named (hnamed _ hself) rfl trivial)).andThen
  | getAll table =>
      refine .refusal (refusal_checkTable _) fun _ _ => ?_
      exact completes_query (.of_named (hnamed _ hself) rfl trivial)
  | getById table key id =>
      refine .refusal (refusal_checkTable _) fun _ _ => ?_
      refine .refusal (refusal_checkColumn _) fun _ _ => ?_
      exact (completes_query (.of_named (hnamed _ hself) rfl trivial)).andThen
  | get table columns filters order =>
      refine .refusal (refusal_checkTable _) fun _ _ => ?_
      refine .refusal (refusal_checkColumns _) fun _ _ => ?_
      refine .refusal (refusal_checkColumns _) fun _ _ => ?_
      refine .refusal (refusal_checkColumns _) fun _ _ => ?_
      exact completes_query (.of_named (hnamed _ hself) rfl trivial)
  | add table row =>
      refine .refusal (refusal_checkTable _) fun _ _ => ?_
      refine .refusal (refusal_checkRow _) fun _ hrow => ?_
      exact completes_run (.of_named (hnamed _ hself) rfl
        (filled_addition table (checkRow_eq_ok.mp hrow).1))
  | updateById table row key id =>
      refine .refusal (refusal_checkTable _) fun _ _ => ?_
      refine .refusal (refusal_checkRow _) fun _ hrow => ?_
      refine .refusal (refusal_checkColumn _) fun _ _ => ?_
      exact completes_run (.of_named (hnamed _ hself) rfl (checkRow_eq_ok.mp hrow).1)
  | updateWhere table row filters =>
      refine .refusal (refusal_checkTable _) fun _ _ => ?_
      refine .refusal (refusal_checkRow _) fun _ hrow => ?_
      refine .refusal (refusal_checkSome _ _) fun _ _ => ?_
      refine .refusal (refusal_checkColumns _) fun _ _ => ?_
      exact completes_run (.of_named (hnamed _ hself) rfl (checkRow_eq_ok.mp hrow).1)
  | deleteById table key id =>
      refine .refusal (refusal_checkTable _) fun _ _ => ?_
      refine .refusal (refusal_checkColumn _) fun _ _ => ?_
      exact completes_run (.of_named (hnamed _ hself) rfl trivial)
  | deleteWhere table filters =>
      refine .refusal (refusal_checkTable _) fun _ _ => ?_
      refine .refusal (refusal_checkSome _ _) fun _ _ => ?_
      refine .refusal (refusal_checkColumns _) fun _ _ => ?_
      exact completes_run (.of_named (hnamed _ hself) rfl trivial)
  | upsert table row key =>
      have hall : ∀ r ∈ Operation.putRequests table row key, r.Complete := fun r hr =>
        complete_of_mem_putRequests hr (hnamed r hr)
      refine .refusal (refusal_checkTable _) fun _ _ => ?_
      refine .refusal (refusal_checkRow _) fun _ _ => ?_
      refine .refusal (refusal_checkColumn _) fun _ _ => ?_
      refine .check (fun _ => .unreachable) fun _ _ => ?_
      exact ⟨Or.inl hall, sound_put hall⟩
  | insertDataset watch data => exact absurd rfl (h watch data)
  | upsertDataset watch data key =>
      have hall : ∀ row ∈ data.rows, ∀ r ∈ Operation.putRequests data.table row key,
          r.Complete := fun row hrow r hr =>
        complete_of_mem_putRequests hr (hnamed r (List.mem_flatMap.mpr ⟨row, hrow, hr⟩))
      refine .refusal (refusal_checkTable _) fun _ _ => ?_
      refine .refusal (refusal_checkColumn _) fun _ _ => ?_
      refine .refusal (refusal_checkKey _ _) fun _ _ => ?_
      refine .refusal (refusal_checkColumns _) fun _ _ => ?_
      refine .check checkFault_checkpoint fun _ _ => ?_
      refine .check (fun _ => .unreachable) fun _ _ => ?_
      refine ⟨Or.inl ?_, sound_putRows hall 0 {} s⟩
      intro r hr
      obtain ⟨row, hrow, hr⟩ := List.mem_flatMap.mp hr
      exact hall row hrow r hr
  | columnInfo table => exact completes_columnInfo g table s
  | columnTypes table => exact (completes_columnInfo g table s).andThen

/-- **EVERY OPERATION COMPLETES ITS REQUESTS**, whatever its arguments and the database
    are.  A bulk insertion first reads the columns of its table, so its requests depend
    on the database. -/
theorem completes_action (g : Gateway) (op : Operation) (s : Session) :
    Completes g (op.requests (op.generatedIn s.database)) (op.action g) s := by
  by_cases hdata : ∃ w d, op = .insertDataset w d
  · obtain ⟨w, d, rfl⟩ := hdata
    exact completes_insertDataset g w d s
  · exact completes_requests g op s (fun w d h => hdata ⟨w, d, h⟩) _

/-- **NO STATEMENT IS INCOMPLETE.**  An operation never fails because a statement lacks a part:
    such a failure is that of the source of connections.  Either all requests that the operation
    may complete are complete, or it fails at a check before it completes any; and every query that
    it sends is that of a complete request. -/
theorem statements_are_complete (g : Gateway) (op : Operation) (s : Session) :
    (∀ cause, ((op.action g).run s).1 = .error (.configuration cause) →
        g.address = .error (.configuration cause))
      ∧ ((∀ r ∈ op.requests (op.generatedIn s.database), r.Complete)
        ∨ ∃ f, CheckFault g f ∧ (op.action g).run s = (.error f, s))
      ∧ ∃ new, ((op.action g).run s).2.sent = s.sent ++ new ∧ ∀ q ∈ new,
        ∃ r ∈ op.requests (op.generatedIn s.database), r.Complete ∧ r.build = .ok q := by
  obtain ⟨hreached, hsound⟩ := completes_action g op s
  refine ⟨hsound, hreached, ?_⟩
  rcases hreached with hall | ⟨f, -, hrun⟩
  · obtain ⟨new, hsent, hqueries⟩ := (within_action g op s).sent
    refine ⟨new, hsent, fun q hq => ?_⟩
    obtain ⟨r, ⟨hr, -⟩, hbuild⟩ := hqueries q hq
    exact ⟨r, hr, hall r hr, hbuild⟩
  · rw [hrun]
    exact ⟨[], (List.append_nil _).symm, List.forall_mem_nil _⟩

end Gateway

end Gridbase
