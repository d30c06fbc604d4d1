import Gridbase.Proofs.Gateway.BulkUpsert
import Mathlib.Data.List.Forall2

/-! # Confined actions

    An operation that writes to one table leaves every other table as it is, whatever
    becomes of the operation.

    * Two databases are the same BESIDE a name if they have the same tables in the same
      order, up to the rows of the tables of that name (`Database.SameBeside`).
    * An action is CONFINED to a name if the database that it leaves, also by a failure, is the
      same beside that name as the one it has met (`Confined`).  This is shown of single steps
      first, then of chains, and so of the bulk writes. -/

namespace Gridbase

open Gridbase.Text Gridbase.Session

/-! ## Databases -/

namespace Database

/-- A table keeps all but its rows, and these too unless it has the name.  Columns and
    definition stay in any case. -/
def SameTable (name : String) (t t' : Table) : Prop :=
  ∃ rows, t' = { t with rows } ∧ (sameName t.name name = false → t' = t)

/-- The databases have the same tables in the same order, but for the rows of the tables
    of one name. -/
def SameBeside (name : String) (db db' : Database) : Prop :=
  List.Forall₂ (SameTable name) db.tables db'.tables

variable {db db' db'' : Database} {name : String}

theorem SameTable.refl (name : String) (t : Table) : SameTable name t t :=
  ⟨t.rows, rfl, fun _ => rfl⟩

theorem SameTable.trans {a b c : Table} (h : SameTable name a b) (h' : SameTable name b c) :
    SameTable name a c := by
  obtain ⟨rows, rfl, hab⟩ := h
  obtain ⟨rows', rfl, hbc⟩ := h'
  exact ⟨rows', rfl, fun hname => (hbc hname).trans (hab hname)⟩

theorem SameBeside.refl (name : String) (db : Database) : SameBeside name db db :=
  List.forall₂_same.mpr fun t _ => SameTable.refl name t

theorem SameBeside.trans (h : SameBeside name db db') (h' : SameBeside name db' db'') :
    SameBeside name db db'' := by
  have hlists : ∀ {as bs cs : List Table}, List.Forall₂ (SameTable name) as bs →
      List.Forall₂ (SameTable name) bs cs → List.Forall₂ (SameTable name) as cs := by
    intro as bs cs h
    induction h generalizing cs with
    | nil => exact id
    | cons hab _ ih =>
        rintro (_ | ⟨hbc, hrest⟩)
        exact .cons (hab.trans hbc) (ih hrest)
  exact hlists h h'

theorem sameBeside_withRows (db : Database) (name : String) (rows : List Cells) :
    SameBeside name db (db.withRows name rows) := by
  have hmodify : ∀ tables : List Table, List.Forall₂ (SameTable name) tables
      (modifyTable name (fun t => { t with rows }) tables) := by
    intro tables
    induction tables with
    | nil => exact .nil
    | cons t tables ih =>
        rw [modifyTable]
        cases ht : sameName t.name name with
        -- the first table of the name changes its rows, and the rest is not looked at
        | true =>
            have hkept : ∀ t ∈ tables, SameTable name t t := fun t _ => SameTable.refl name t
            exact .cons ⟨rows, rfl, fun hother => absurd (hother.symm.trans ht) Bool.false_ne_true⟩
              (List.forall₂_same.mpr hkept)
        | false => exact .cons (SameTable.refl name t) ih
  rw [withRows]
  cases db.table? name with
  | some t => exact hmodify db.tables
  | none => exact SameBeside.refl name db

theorem sameBeside_recordNumber (t : Table) (cells : Cells) (db : Database) (name : String) :
    SameBeside name db (recordNumber t cells db) := by
  have htables : (recordNumber t cells db).tables = db.tables := by
    rw [recordNumber]
    split
    · split <;> rfl
    · rfl
  rw [SameBeside, htables]
  exact SameBeside.refl name db

/-- An insertion writes to the table that it names. -/
theorem sameBeside_insert {s : Insert} {count : Nat} (htable : s.table = some name)
    (h : db.insert s = .ok (count, db')) : SameBeside name db db' := by
  rw [insert, htable] at h
  obtain ⟨_, -, h⟩ := bind_eq_ok.mp h
  obtain ⟨t, -, h⟩ := bind_eq_ok.mp h
  split at h
  · cases h
  · obtain ⟨cells, -, h⟩ := bind_eq_ok.mp h
    cases h
    exact (sameBeside_withRows db name _).trans (sameBeside_recordNumber ..)

/-- An update writes to the table that it names. -/
theorem sameBeside_update {s : Update} {count : Nat} (htable : s.table = some name)
    (h : db.update s = .ok (count, db')) : SameBeside name db db' := by
  rw [update, htable] at h
  obtain ⟨_, -, h⟩ := bind_eq_ok.mp h
  obtain ⟨t, -, h⟩ := bind_eq_ok.mp h
  split at h
  · cases h
  · obtain ⟨terms, -, h⟩ := bind_eq_ok.mp h
    obtain ⟨rows, -, h⟩ := bind_eq_ok.mp h
    cases h
    exact sameBeside_withRows db name _

end Database

/-! ## Actions -/

namespace Gateway

open Database

/-- However the action ends, it leaves every table of another name as it was.  This
    holds of failures too, also of those in the middle of a run. -/
def Confined {α : Type} (name : String) (x : Action α) : Prop :=
  ∀ s, SameBeside name s.database (x.run s).2.database

variable {α β : Type} {name table key : String} {x : Action α} {f : α → Action β}

/-- An action that keeps the database is confined to any name. -/
theorem confined_of_keeps (h : ∀ s, (x.run s).2.database = s.database) : Confined name x := by
  intro s
  rw [h s]
  exact SameBeside.refl name _

theorem confined_pure (a : α) : Confined name (pure a) := confined_of_keeps fun _ => rfl

theorem confined_require (result : Except Failure α) : Confined name (require result) :=
  confined_of_keeps fun s => by rw [run_require]

theorem confined_columnsOf (table : String) : Confined name (columnsOf table) :=
  confined_of_keeps fun s => congrArg (fun r => r.2.database)
    (run_require (Catalog.liveColumns s.database table) s)

/-- **A CHAIN IS CONFINED** if its steps are.  A step that fails ends the chain with
    what it left, so the bound of the first step is enough there. -/
theorem confined_bind (hx : Confined name x) (hf : ∀ a, Confined name (f a)) :
    Confined name (x >>= f) := by
  intro s
  have hfirst := hx s
  rw [run_bind]
  cases hrun : x.run s with
  | mk result s₁ =>
      rw [hrun] at hfirst
      cases result with
      | error e => exact hfirst
      | ok a => exact hfirst.trans (hf a s₁)

theorem confined_discard (hx : Confined name x) : Confined name (discard x) :=
  confined_bind hx fun _ => confined_pure ()

/-- A statement is confined to what it does to a database. -/
theorem confined_send {statement : Statement}
    (h : ∀ db count db', db.execute statement = .ok (count, db') → SameBeside name db db') :
    Confined name (send statement) := by
  intro s
  cases hbuild : statement.build .sqlite with
  | error cause =>
      have hrun : (send statement).run s = (.error (.configuration cause), s) := by
        rw [send, hbuild]
        rfl
      rw [hrun]
      exact SameBeside.refl name _
  | ok q =>
      rw [run_send hbuild]
      cases hexecute : s.database.execute statement with
      | error fault => exact SameBeside.refl name _
      | ok result => exact h _ _ _ hexecute

theorem confined_send_insert {s : Insert} (h : s.table = some name) :
    Confined name (send (.insert s)) :=
  confined_send fun _ _ _ hexecute => sameBeside_insert h hexecute

theorem confined_send_update {s : Update} (h : s.table = some name) :
    Confined name (send (.update s)) :=
  confined_send fun _ _ _ hexecute => sameBeside_update h hexecute

/-- A selection changes nothing. -/
theorem confined_ask (select : Select) : Confined name (ask select) := by
  refine confined_of_keeps fun s => ?_
  cases hbuild : select.build .sqlite with
  | error cause =>
      rw [ask, hbuild]
      rfl
  | ok q =>
      rw [run_ask hbuild]
      cases s.database.select select <;> rfl

/-! ## Rows -/

theorem confined_insertRows (w : Watch) (table : String) (columns : List String)
    (rows : List Row) : ∀ i, Confined table (insertRows w table columns i rows) := by
  induction rows with
  | nil => intro i; exact confined_pure 0
  | cons row rows ih =>
      intro i
      refine confined_bind (confined_require _) fun _ => ?_
      refine confined_bind (confined_send_insert rfl) fun written => ?_
      exact confined_bind (ih (i + 1)) fun _ => confined_pure _

theorem confined_put (table : String) (row : Row) (key : String) :
    Confined table (put table row key) := by
  rw [put]
  cases row.get? key with
  | none => exact confined_of_keeps fun _ => rfl
  | some id =>
      refine confined_bind (confined_ask _) fun found => ?_
      split
      · exact confined_bind (confined_discard (confined_send_insert rfl)) fun _ => confined_pure _
      · exact confined_bind (confined_discard (confined_send_update rfl)) fun _ => confined_pure _

theorem confined_putRows (w : Watch) (table key : String) (rows : List Row) :
    ∀ (i : Nat) (tally : Tally), Confined table (putRows w table key i rows tally) := by
  induction rows with
  | nil => intro i tally; exact confined_pure tally
  | cons row rows ih =>
      intro i tally
      refine confined_bind (confined_require _) fun _ => ?_
      exact confined_bind (confined_put table row key) fun outcome => ih (i + 1) _

/-- **A BULK INSERTION IS CONFINED** to its table. -/
theorem confined_insertDataset (g : Gateway) (w : Watch) (d : Dataset) :
    Confined d.table (g.insertDataset w d) := by
  refine confined_bind (confined_require _) fun _ => ?_
  refine confined_bind (confined_require _) fun _ => ?_
  refine confined_bind (confined_require _) fun _ => ?_
  refine confined_bind (confined_columnsOf _) fun infos => ?_
  exact confined_bind (confined_require _) fun columns => confined_insertRows w _ columns _ 0

/-- **A BULK UPSERT IS CONFINED** to its table. -/
theorem confined_upsertDataset (g : Gateway) (w : Watch) (d : Dataset) (key : String) :
    Confined d.table (g.upsertDataset w d key) := by
  rw [upsertDataset_eq_plan]
  exact confined_bind (confined_require _) fun _ => confined_putRows w d.table key d.rows 0 {}

end Gateway

end Gridbase
