import Gridbase.Proofs.Gateway.BulkInsert
import Gridbase.Proofs.Schema.Validity

/-! # Operations and their names

    The operations of a gateway, each with its arguments, so that a statement can be made
    of all of them.

    * An action REFUSES if it fails in every session, always for the same fault in its
      arguments, and changes none (`Refuses`).
    * Names are CHECKED if the action refuses unless all of them are valid (`Checked`); the
      checks of an operation are put together in the order in which it makes them.
    * Every operation but one checks all of its names before it looks at the database
      (`checked_action`).  The insertion of a dataset checks the table only, and learns
      which columns exist before it checks theirs (`names_rejected`). -/

namespace Gridbase

open Gridbase.Text Gridbase.Session

/-! ## Operations -/

/-- An operation of a gateway with its arguments.  Defaults and filters are part of
    them, and so is the watch of a bulk operation. -/
inductive Operation
  | createTable (table : String) (columns : List (String × StorageClass)) (key : Option String)
  | createTableWith (table : String) (columns : List ColumnClause)
  | createDesigned (design : TableDesign)
  | renameTable (old new : String)
  | dropTable (table : String)
  | getAll (table : String)
  | getById (table key : String) (id : Value)
  | get (table : String) (columns : List String) (filters : List Filter) (order : List OrderTerm)
  | add (table : String) (row : Row)
  | updateById (table : String) (row : Row) (key : String) (id : Value)
  | updateWhere (table : String) (row : Row) (filters : List Filter)
  | deleteById (table key : String) (id : Value)
  | deleteWhere (table : String) (filters : List Filter)
  | upsert (table : String) (row : Row) (key : String)
  | insertDataset (watch : Watch) (data : Dataset)
  | upsertDataset (watch : Watch) (data : Dataset) (key : String)
  | columnInfo (table : String)
  | columnTypes (table : String)

namespace Operation

/-- What an operation gives if it succeeds: nothing, rows, a count, or what
    introspection says of the columns. -/
abbrev Result : Operation → Type
  | createTable .. | createTableWith .. | createDesigned _ | renameTable .. | dropTable _ => Unit
  | getAll _ | get .. => List Row
  | getById .. => Option Row
  | add .. | updateById .. | updateWhere .. | deleteById .. | deleteWhere ..
  | insertDataset .. => Nat
  | upsert .. => Upserted
  | upsertDataset .. => Gateway.Tally
  | columnInfo _ => List ColumnInfo
  | columnTypes _ => List (String × DataType)

/-- The action of an operation.  Everything that is proved of all operations goes by the
    cases of this function. -/
def action (g : Gateway) : (op : Operation) → Action op.Result
  | createTable table columns key => g.createTable table columns key
  | createTableWith table columns => g.createTableWith table columns
  | createDesigned design => g.createDesigned design
  | renameTable old new => g.renameTable old new
  | dropTable table => g.dropTable table
  | getAll table => g.getAll table
  | getById table key id => g.getById table key id
  | get table columns filters order => g.get table columns filters order
  | add table row => g.add table row
  | updateById table row key id => g.updateById table row key id
  | updateWhere table row filters => g.updateWhere table row filters
  | deleteById table key id => g.deleteById table key id
  | deleteWhere table filters => g.deleteWhere table filters
  | upsert table row key => g.upsert table row key
  | insertDataset watch data => g.insertDataset watch data
  | upsertDataset watch data key => g.upsertDataset watch data key
  | columnInfo table => g.columnInfo table
  | columnTypes table => g.columnTypes table

/-- The names of tables and columns among the arguments.  Values and defaults are not
    among them. -/
def names : Operation → List String
  | createTable table columns key => table :: (columns.map Prod.fst ++ key.toList)
  | createTableWith table columns => table :: columns.map ColumnClause.name
  | createDesigned design => design.tableName :: design.columns.map ColumnDesign.name
  | renameTable old new => [old, new]
  | dropTable table | getAll table | columnInfo table | columnTypes table => [table]
  | getById table key _ | deleteById table key _ => [table, key]
  | get table columns filters order =>
      table :: (columns ++ (filters.map Filter.column ++ order.map OrderTerm.column))
  | add table row => table :: row.names
  | updateById table row key _ | upsert table row key => table :: (row.names ++ [key])
  | updateWhere table row filters => table :: (row.names ++ filters.map Filter.column)
  | deleteWhere table filters => table :: filters.map Filter.column
  | insertDataset _ data => data.table :: data.names
  | upsertDataset _ data key => data.table :: key :: data.names

end Operation

namespace Gateway

/-! ## Checked names -/

variable {α : Type}

/-- The action fails for the same fault in its arguments wherever it is run, and changes
    nothing. -/
def Refuses (x : Action α) : Prop :=
  ∃ f : Failure, f.kind = .validation ∧ ∀ s, x.run s = (.error f, s)

/-- All names are valid, or the action refuses without looking at the session. -/
def Checked (names : List String) (x : Action α) : Prop :=
  (∀ name ∈ names, Dialect.sqlite.isValidName name = true) ∨ Refuses x

namespace Checked

variable {β : Type} {names more : List String} {k : β → Action α}

/-- Nothing is left to check. -/
theorem done {x : Action α} : Checked [] x := Or.inl (List.forall_mem_nil _)

/-- **A CHECK BEFORE A CHAIN** checks the names that make it succeed, and the chain the
    others. -/
theorem require {check : Except Failure β} (hrefusal : Refusal check)
    (hcheck : ∀ b, check = .ok b → ∀ name ∈ names, Dialect.sqlite.isValidName name = true)
    (hk : ∀ b, check = .ok b → Checked more (k b)) :
    Checked (names ++ more) (Session.require check >>= k) := by
  cases check with
  | error f => exact Or.inr ⟨f, hrefusal f rfl, fun s => rfl⟩
  | ok b =>
      rcases hk b rfl with hmore | ⟨f, hf, hrun⟩
      · exact Or.inl (List.forall_mem_append.mpr ⟨hcheck b rfl, hmore⟩)
      · exact Or.inr ⟨f, hf, hrun⟩

variable {x : Unit → Action α}

/-- A check on one name. -/
theorem single {name : String} {check : Except Failure Unit} (hrefusal : Refusal check)
    (hcheck : check = .ok () → Dialect.sqlite.isValidName name = true)
    (hx : Checked more (x ())) : Checked (name :: more) (Session.require check >>= x) := by
  have hall : Checked ([name] ++ more) (Session.require check >>= x) :=
    require hrefusal (fun _ h => List.forall_mem_singleton.mpr (hcheck h)) fun _ _ => hx
  exact hall

theorem table {name : String} (hx : Checked more (x ())) :
    Checked (name :: more) (Session.require (checkTable name) >>= x) :=
  single (refusal_checkTable name) checkTable_eq_ok.mp hx

theorem column {name : String} (hx : Checked more (x ())) :
    Checked (name :: more) (Session.require (checkColumn name) >>= x) :=
  single (refusal_checkColumn name) checkColumn_eq_ok.mp hx

theorem columns (hx : Checked more (x ())) :
    Checked (names ++ more) (Session.require (checkColumns names) >>= x) :=
  require (refusal_checkColumns names) (fun _ h => checkColumns_eq_ok.mp h) fun _ _ => hx

theorem row {row : Row} (hx : Checked more (x ())) :
    Checked (row.names ++ more) (Session.require (checkRow row) >>= x) :=
  require (refusal_checkRow row) (fun _ h => (checkRow_eq_ok.mp h).2) fun _ _ => hx

/-- Nothing comes after the last names. -/
theorem last {x : Action α} (h : Checked (names ++ []) x) : Checked names x := by
  rwa [List.append_nil] at h

/-- What is made of a result does not matter. -/
theorem andThen {x : Action β} (hx : Checked names x) : Checked names (x >>= k) := by
  rcases hx with hnames | ⟨f, hf, hrun⟩
  · exact Or.inl hnames
  · refine Or.inr ⟨f, hf, fun s => ?_⟩
    rw [run_bind, hrun]

/-- A check that is not on names. -/
theorem other {check : Except Failure Unit} (hrefusal : Refusal check)
    (hx : Checked more (x ())) : Checked more (Session.require check >>= x) := by
  have hall : Checked ([] ++ more) (Session.require check >>= x) :=
    require hrefusal (fun _ _ => List.forall_mem_nil _) fun _ _ => hx
  exact hall

end Checked

/-! ## Checks of the operations -/

theorem refusal_chooseKey (columns : List (String × StorageClass)) (key : Option String) :
    Refusal (chooseKey columns key) := by
  intro f h
  cases key with
  | none => exact nomatch h
  | some key =>
      rw [chooseKey] at h
      split at h <;> cases h
      rfl

theorem refusal_newTable (table : String) (columns : List (String × StorageClass))
    (key : Option String) : Refusal (newTable table columns key) :=
  (refusal_checkTable table).bind fun _ => (refusal_checkSome _ columns).bind fun _ =>
    (refusal_checkColumns _).bind fun _ => (refusal_chooseKey columns key).bind fun _ =>
      refusal_ok _

/-- The key that is asked for has the name of a column, up to its case. -/
theorem valid_of_newTable {table : String} {columns : List (String × StorageClass)}
    {key : Option String} {create : CreateTable} (h : newTable table columns key = .ok create) :
    ∀ name ∈ (Operation.createTable table columns key).names,
      Dialect.sqlite.isValidName name = true := by
  obtain ⟨_, htable, h⟩ := bind_eq_ok.mp h
  obtain ⟨_, -, h⟩ := bind_eq_ok.mp h
  obtain ⟨_, hcolumns, h⟩ := bind_eq_ok.mp h
  obtain ⟨_, hkey, -⟩ := bind_eq_ok.mp h
  have hnames := checkColumns_eq_ok.mp hcolumns
  refine List.forall_mem_cons.mpr ⟨checkTable_eq_ok.mp htable,
    List.forall_mem_append.mpr ⟨hnames, ?_⟩⟩
  intro name hname
  obtain rfl := Option.mem_toList.mp hname
  -- the key is a spelling of some column, and validity does not look at case
  rw [chooseKey] at hkey
  split at hkey
  · rename_i hany
    obtain ⟨c, hc, hsame⟩ := List.any_eq_true.mp hany
    rw [Dialect.isValidName, ← Identifier.isValid_congr hsame]
    exact hnames c.1 (List.mem_map_of_mem hc)
  · exact nomatch hkey

theorem refusal_validate (design : TableDesign) : Refusal (design.validate .sqlite) := by
  intro f h
  rw [TableDesign.validate] at h
  split at h <;> cases h
  rfl

theorem valid_of_validate {design : TableDesign} {u : Unit}
    (h : design.validate .sqlite = .ok u) :
    ∀ name ∈ (Operation.createDesigned design).names, Dialect.sqlite.isValidName name = true := by
  have hvalid := TableDesign.validate_eq_ok_iff.mp h
  exact List.forall_mem_cons.mpr ⟨hvalid.table, List.forall_mem_map.mpr hvalid.names⟩

theorem refusal_checkKey (d : Dataset) (key : String) : Refusal (checkKey d key) := by
  intro f h
  rw [checkKey] at h
  split at h <;> cases h
  rfl

/-- **NAMES ARE CHECKED FIRST**: before an operation looks at the database, it has refused
    every invalid name.  An inserted dataset is the exception. -/
theorem checked_action (g : Gateway) (op : Operation)
    (h : ∀ watch data, op ≠ .insertDataset watch data) : Checked op.names (op.action g) := by
  -- the checks of each operation, in the order in which it makes them
  cases op with
  | createTable table columns key =>
      exact .last (.require (refusal_newTable table columns key) (fun _ => valid_of_newTable)
        fun _ _ => .done)
  | createTableWith table columns =>
      exact .table (.other (refusal_checkSome _ _) (.last (.columns .done)))
  | createDesigned design =>
      exact .last (.require (refusal_validate design) (fun _ => valid_of_validate) fun _ _ => .done)
  | renameTable old new => exact .table (.table .done)
  | dropTable table | getAll table => exact .table .done
  | getById table key id | deleteById table key id => exact .table (.column .done)
  | get table columns filters order =>
      exact .table (.columns (.columns (.last (.columns .done))))
  | add table row => exact .table (.last (.row .done))
  | updateById table row key id | upsert table row key => exact .table (.row (.column .done))
  | updateWhere table row filters =>
      exact .table (.row (.other (refusal_checkSome _ _) (.last (.columns .done))))
  | deleteWhere table filters =>
      exact .table (.other (refusal_checkSome _ _) (.last (.columns .done)))
  | insertDataset watch data => exact absurd rfl (h watch data)
  | upsertDataset watch data key =>
      exact .table (.column (.other (refusal_checkKey data key) (.last (.columns .done))))
  | columnInfo table => exact .table .done
  | columnTypes table => exact .andThen (.table .done)

/-! ## The insertion of a dataset -/

/-- The columns that are written have valid names. -/
theorem valid_of_writtenColumns {generated names columns : List String}
    (h : writtenColumns generated names = .ok columns) :
    ∀ name ∈ columns, Dialect.sqlite.isValidName name = true := by
  induction names generalizing columns with
  | nil =>
      obtain rfl := Except.ok.inj h
      exact List.forall_mem_nil _
  | cons name names ih =>
      rw [writtenColumns] at h
      split at h
      · exact ih h
      · obtain ⟨_, hname, h⟩ := bind_eq_ok.mp h
        obtain ⟨rest, hrest, h⟩ := bind_eq_ok.mp h
        obtain rfl := Except.ok.inj h
        exact List.forall_mem_cons.mpr ⟨checkColumn_eq_ok.mp hname, ih hrest⟩

theorem refusal_writtenColumns (generated names : List String) :
    Refusal (writtenColumns generated names) := by
  induction names with
  | nil => exact refusal_ok _
  | cons name names ih =>
      rw [writtenColumns]
      split
      · exact ih
      · exact (refusal_checkColumn name).bind fun _ => ih.bind fun _ => refusal_ok _

theorem refusal_insertableColumns (generated names : List String) :
    Refusal (insertableColumns generated names) :=
  (refusal_writtenColumns generated names).bind fun _ =>
    (refusal_checkSome _ _).bind fun _ => refusal_ok _

/-- The columns of a dataset are looked up before their names are checked: without the table
    the insertion is not refused, and with it an invalid name is, unless the table has it as
    a generated column. -/
structure LooksUpFirst (g : Gateway) (w : Watch) (d : Dataset) : Prop where
  absent : ∀ s : Session, s.database.reachable? d.table = none →
    (g.insertDataset w d).run s = (.error (Catalog.notFound d.table), s)
  present : ∀ (s : Session) (infos : List ColumnInfo),
    Catalog.liveColumns s.database d.table = .ok infos →
    (∃ name ∈ d.names, Dialect.sqlite.isValidName name = false
      ∧ (generatedNames infos).any (sameName name) = false) →
    ∃ f : Failure, f.kind = .validation ∧ (g.insertDataset w d).run s = (.error f, s)

/-- An insertion of a dataset that gets as far as its table asks for it before it looks
    at the columns. -/
theorem looksUpFirst {g : Gateway} {w : Watch} {d : Dataset}
    (htable : Dialect.sqlite.isValidName d.table = true) (hstart : w.atStart = false)
    (haddress : g.checkAddress = .ok ()) : LooksUpFirst g w d := by
  -- the name of the table is all that is checked before the table is asked for
  have hplan : ∀ db, insertPlan g w d db = Catalog.liveColumns db d.table >>= fun infos =>
      insertableColumns (generatedNames infos) d.names := by
    intro db
    rw [insertPlan, checkTable_eq_ok.mpr htable, hstart, haddress]
    rfl
  constructor
  · intro s habsent
    have hinfos : Catalog.liveColumns s.database d.table = .error (Catalog.notFound d.table) := by
      rw [Catalog.liveColumns, Catalog.columns, habsent]
      rfl
    rw [run_insertDataset, hplan, hinfos]
    rfl
  · rintro s infos hinfos ⟨name, hname, hinvalid, hgenerated⟩
    have hcheck : insertPlan g w d s.database
        = insertableColumns (generatedNames infos) d.names := by
      rw [hplan, hinfos]
      rfl
    rw [run_insertDataset, hcheck]
    cases hcolumns : insertableColumns (generatedNames infos) d.names with
    | error f => exact ⟨f, refusal_insertableColumns _ _ f hcolumns, rfl⟩
    | ok columns =>
        obtain ⟨written, hwritten, h⟩ := bind_eq_ok.mp hcolumns
        -- a name that is not generated is written, and would have passed its check
        have hmem : name ∈ written := by
          rw [writtenColumns_eq_ok hwritten]
          exact List.mem_filter.mpr ⟨hname, by rw [hgenerated]; rfl⟩
        rw [valid_of_writtenColumns hwritten name hmem] at hinvalid
        cases hinvalid

/-! ## Invalid names -/

/-- **INVALID NAMES ARE REFUSED** by every operation but one, whatever the database is.  The
    insertion of a dataset refuses the name of its table likewise, but it looks the table up
    before it checks the names of the columns. -/
theorem names_rejected (g : Gateway) :
    (∀ op : Operation, (∀ w d, op ≠ .insertDataset w d) →
        (∃ name ∈ op.names, Dialect.sqlite.isValidName name = false) → Refuses (op.action g))
      ∧ ∀ (w : Watch) (d : Dataset),
        (Dialect.sqlite.isValidName d.table = false → Refuses (g.insertDataset w d))
          ∧ (Dialect.sqlite.isValidName d.table = true → w.atStart = false →
            g.checkAddress = .ok () → LooksUpFirst g w d) := by
  have hrefuses : ∀ {α : Type} {names : List String} {x : Action α}, Checked names x →
      (∃ name ∈ names, Dialect.sqlite.isValidName name = false) → Refuses x := by
    rintro α names x (hvalid | hrefuses) ⟨name, hname, hinvalid⟩
    · rw [hvalid name hname] at hinvalid
      exact nomatch hinvalid
    · exact hrefuses
  refine ⟨fun op hop => hrefuses (checked_action g op hop), fun w d => ⟨?_, looksUpFirst⟩⟩
  intro htable
  have hchecked : Checked [d.table] (g.insertDataset w d) := .table .done
  exact hrefuses hchecked ⟨d.table, List.mem_singleton_self _, htable⟩

/-- A dataset for a table that there may be, with a column that there cannot be: its
    name has a blank in it. -/
def misnamed : Dataset := (Dataset.empty "people").pushColumn "full name" [.text "Ada"]

/-- The name is refused by an upsert, but an insertion asks for the table first.  So the
    same dataset is refused for its name where the table is there, and for the table
    where it is not. -/
theorem names_rejected_misnamed :
    Refuses (Gateway.upsertDataset ⟨.ok "memory"⟩ .never misnamed "full name")
      ∧ (Gateway.insertDataset ⟨.ok "memory"⟩ .never misnamed).run {}
        = (.error (.notFound "Table 'people' does not exist."), {})
      ∧ ∃ f : Failure, f.kind = .validation
        ∧ (Gateway.insertDataset ⟨.ok "memory"⟩ .never misnamed).run peopleSession
          = (.error f, peopleSession) := by
  have hinvalid : Dialect.sqlite.isValidName "full name" = false := by decide +kernel
  obtain ⟨hothers, hinsertion⟩ := names_rejected ⟨.ok "memory"⟩
  refine ⟨hothers (.upsertDataset .never misnamed "full name") nofun
    ⟨"full name", by decide +kernel, hinvalid⟩, ?_⟩
  have hlate := (hinsertion .never misnamed).2 (by decide +kernel) rfl (by decide +kernel)
  refine ⟨hlate.absent {} (by decide +kernel), ?_⟩
  have hnone : (Catalog.liveColumns peopleSession.database misnamed.table).map generatedNames
      = .ok [] := by decide +kernel
  cases hinfos : Catalog.liveColumns peopleSession.database misnamed.table with
  | error f =>
      rw [hinfos] at hnone
      exact nomatch hnone
  | ok infos =>
      rw [hinfos] at hnone
      refine hlate.present peopleSession infos hinfos ⟨"full name", by decide +kernel, hinvalid, ?_⟩
      rw [Except.ok.inj hnone]
      rfl

end Gateway

end Gridbase
