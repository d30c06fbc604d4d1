import Gridbase.Gateway
import Gridbase.Proofs.Gateway.Session
import Gridbase.Proofs.Store.Rows

/-! # Checks on arguments

    Every operation checks its arguments before it opens a connection: the names may stand
    in a statement, and a row has at least one entry. -/

namespace Gridbase.Gateway

open Gridbase.Session

theorem checkTable_eq_ok {name : String} :
    checkTable name = .ok () ↔ Dialect.sqlite.isValidName name = true := by
  rw [checkTable]
  split <;> simp_all

theorem checkColumn_eq_ok {name : String} :
    checkColumn name = .ok () ↔ Dialect.sqlite.isValidName name = true := by
  rw [checkColumn]
  split <;> simp_all

theorem checkColumns_eq_ok {names : List String} :
    checkColumns names = .ok () ↔ ∀ name ∈ names, Dialect.sqlite.isValidName name = true := by
  induction names with
  | nil => simp [checkColumns]
  | cons name names ih =>
      rw [checkColumns, bind_eq_ok, List.forall_mem_cons, ← ih, ← checkColumn_eq_ok]
      exact ⟨fun ⟨_, hname, hnames⟩ => ⟨hname, hnames⟩, fun ⟨hname, hnames⟩ => ⟨_, hname, hnames⟩⟩

theorem checkRow_eq_ok {row : Row} :
    checkRow row = .ok ()
      ↔ row.entries ≠ [] ∧ ∀ name ∈ row.names, Dialect.sqlite.isValidName name = true := by
  rw [checkRow, Row.isEmpty, ← checkColumns_eq_ok]
  cases row.entries <;> simp

theorem checkFilters_eq_ok {filters : List Filter} :
    checkFilters filters = .ok ()
      ↔ ∀ f ∈ filters, Dialect.sqlite.isValidName f.column = true := by
  rw [checkFilters, checkColumns_eq_ok, List.forall_mem_map]

theorem checkSome_eq_ok {α : Type} {message : String} {items : List α} :
    checkSome message items = .ok () ↔ items ≠ [] := by
  cases items <;> simp [checkSome]

/-! ## Refusals -/

/-- The result is no refusal, or a refusal of what was given: checks find fault with
    their arguments only. -/
def Refusal {α : Type} (result : Except Failure α) : Prop :=
  ∀ f, result = .error f → f.kind = .validation

theorem Refusal.bind {α β : Type} {x : Except Failure α} {f : α → Except Failure β}
    (hx : Refusal x) (hf : ∀ a, Refusal (f a)) : Refusal (x >>= f) := by
  intro e h
  cases x with
  | error _ =>
      cases h
      exact hx _ rfl
  | ok a => exact hf a e h

theorem refusal_ok {α : Type} (a : α) : Refusal (.ok a) := by
  rintro f ⟨⟩

theorem refusal_checkTable (name : String) : Refusal (checkTable name) := by
  intro f h
  rw [checkTable] at h
  split at h <;> cases h
  rfl

theorem refusal_checkColumn (name : String) : Refusal (checkColumn name) := by
  intro f h
  rw [checkColumn] at h
  split at h <;> cases h
  rfl

theorem refusal_checkColumns (names : List String) : Refusal (checkColumns names) := by
  induction names with
  | nil => exact refusal_ok ()
  | cons name names ih => exact (refusal_checkColumn name).bind fun _ => ih

theorem refusal_checkSome {α : Type} (message : String) (items : List α) :
    Refusal (checkSome message items) := by
  intro f h
  rw [checkSome] at h
  split at h <;> cases h
  rfl

theorem refusal_checkRow (row : Row) : Refusal (checkRow row) := by
  intro f h
  rw [checkRow] at h
  split at h
  · cases h
    rfl
  · exact refusal_checkColumns row.names f h

/-! ## Connections -/

/-- Over a connection that can be opened, a statement is sent. -/
theorem run_eq_send {g : Gateway} (h : g.checkAddress = .ok ()) (statement : Statement) :
    g.run statement = send statement := by
  rw [run, h]
  rfl

/-- Over a connection that can be opened, a selection is sent. -/
theorem query_eq_ask {g : Gateway} (h : g.checkAddress = .ok ()) (select : Select) :
    g.query select = ask select := by
  rw [query, h]
  rfl

/-! ## Putting a row under its key -/

/-- The checks before a row is put under its key.  The address comes last, as it is
    asked for only with a connection to open. -/
def upsertChecks (g : Gateway) (table : String) (row : Row) (key : String) :
    Except Failure Unit := do
  checkTable table
  checkRow row
  checkColumn key
  g.checkAddress

/-- **THE CHECKS COME FIRST.** -/
theorem upsert_eq (g : Gateway) (table : String) (row : Row) (key : String) :
    g.upsert table row key
      = require (upsertChecks g table row key) >>= fun _ => put table row key := by
  simp only [upsert, upsertChecks, require_bind, bind_assoc]

theorem run_upsert (g : Gateway) (table : String) (row : Row) (key : String) (s : Session) :
    (g.upsert table row key).run s
      = match upsertChecks g table row key with
        | .ok _ => (put table row key).run s
        | .error f => (.error f, s) := by
  rw [upsert_eq, run_require_bind]
  cases upsertChecks g table row key <;> rfl

end Gridbase.Gateway
