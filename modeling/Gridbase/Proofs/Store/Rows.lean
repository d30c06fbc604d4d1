import Gridbase.Proofs.Store.Words
import Gridbase.Proofs.Text
import Gridbase.Store.Database

/-! # Rows that are written

    What an insertion does to the table that it names.

    * Writing reaches that table, and leaves everything of it but its rows
      (`reachable?_withRows`).
    * A NEW ROW holds in each column what was written to it, as the column stores it
      (`Table.Takes`); a row number that is written as NULL is a number of the table's own.
    * An insertion that succeeds has added one such row at the end (`insert_eq_ok`). -/

namespace Gridbase

open Gridbase.Text

/-- A chain of checks succeeds when each of them does, one after the other. -/
theorem bind_eq_ok {ε α β : Type} {x : Except ε α} {f : α → Except ε β} {b : β} :
    x >>= f = .ok b ↔ ∃ a, x = .ok a ∧ f a = .ok b := by
  cases x with
  | error e =>
      constructor
      · intro h
        exact nomatch h
      · rintro ⟨a, h, -⟩
        exact nomatch h
  | ok a =>
      constructor
      · intro h
        exact ⟨a, rfl, h⟩
      · rintro ⟨_, ⟨⟩, h⟩
        exact h

/-! ## Affinity -/

theorem NumberText.read?_eq_some {s : String} {x : Stored} (h : read? s = some x) :
    (∃ n, x = .integer n) ∨ ∃ r, x = .real r := by
  simp only [read?] at h
  split at h
  · exact Or.inl ⟨_, (Option.some.inj h).symm⟩
  · split at h
    · obtain ⟨r, -, rfl⟩ := Option.map_eq_some_iff.mp h
      exact Or.inr ⟨r, rfl⟩
    · exact nomatch h

namespace Affinity

theorem toNumber_eq_null {s : Stored} : toNumber s = .null ↔ s = .null := by
  cases s with
  | text s =>
      rw [toNumber]
      cases hread : NumberText.read? s with
      | none => simp
      | some number =>
          rcases NumberText.read?_eq_some hread with ⟨n, rfl⟩ | ⟨r, rfl⟩ <;> simp
  | _ => simp [toNumber]

theorem toWhole_eq_null {s : Stored} : toWhole s = .null ↔ s = .null := by
  cases s with
  | real x =>
      rw [toWhole, wholeNumber]
      split <;> simp
  | _ => simp [toWhole]

theorem toReal_eq_null {s : Stored} : toReal s = .null ↔ s = .null := by
  cases s <;> simp [toReal]

theorem toText_eq_null {s : Stored} : toText s = .null ↔ s = .null := by
  cases s <;> simp [toText]

/-- **NULL IS STORED FOR NULL ONLY.** -/
theorem store_eq_null {a : Affinity} {s : Stored} : a.store s = .null ↔ s = .null := by
  cases a <;> simp [store, toText_eq_null, toReal_eq_null, toWhole_eq_null, toNumber_eq_null]

end Affinity

/-! ## Tables by name -/

namespace Database

variable {db : Database} {name : String} {t : Table}

/-- The first table of a name is found changed. -/
theorem find?_modifyTable (name : String) {f : Table → Table} (hf : ∀ t, (f t).name = t.name)
    (tables : List Table) :
    (modifyTable name f tables).find? (fun t => sameName t.name name)
      = (tables.find? fun t => sameName t.name name).map f := by
  induction tables with
  | nil => rfl
  | cons t tables ih =>
      rw [modifyTable]
      cases ht : sameName t.name name with
      | true => simp [hf, ht]
      | false => simpa [ht] using ih

/-- A table that can be read was made by a statement, or holds the greatest numbers. -/
theorem reachable?_eq_some :
    db.reachable? name = some t ↔ db.table? name = some t
      ∨ (db.table? name = none ∧ sameName sequenceName name = true
        ∧ ∃ rows, db.sequence = some rows ∧ sequenceTable rows = t) := by
  rw [reachable?]
  cases htable : db.table? name with
  | some u => simp
  | none =>
      by_cases hname : sameName sequenceName name = true
      · rw [if_pos hname]
        simp [hname]
      · rw [if_neg hname]
        simp [hname]

/-- **WRITTEN ROWS ARE READ**: a table has other rows after they were written to it, and is
    otherwise the same. -/
theorem reachable?_withRows (h : db.reachable? name = some t) (rows : List Cells) :
    (db.withRows name rows).reachable? name = some { t with rows } := by
  rw [reachable?_eq_some]
  rcases reachable?_eq_some.mp h with htable | ⟨htable, hname, old, hrows, rfl⟩
  · left
    have hfind := find?_modifyTable name (f := fun t => { t with rows }) (fun _ => rfl) db.tables
    rw [withRows, htable]
    refine hfind.trans ?_
    show (db.table? name).map _ = _
    rw [htable]
    rfl
  · right
    rw [withRows, htable]
    exact ⟨htable, hname, rows, rfl, rfl⟩

/-- A database in which the rows of a table are replaced by its own is the same
    database. -/
theorem withRows_self (h : db.reachable? name = some t) : db.withRows name t.rows = db := by
  -- the first table of the name gets the rows it has
  have hmodify : ∀ tables : List Table,
      tables.find? (fun u => sameName u.name name) = some t →
      modifyTable name (fun u => { u with rows := t.rows }) tables = tables := by
    intro tables
    induction tables with
    | nil => intro hfind; exact nomatch hfind
    | cons u tables ih =>
        intro hfind
        rw [modifyTable]
        cases hu : sameName u.name name with
        | true =>
            simp only [List.find?_cons, hu, Option.some.injEq] at hfind
            rw [hfind]
            rfl
        | false =>
            simp only [List.find?_cons, hu] at hfind
            rw [ih hfind]
            rfl
  rcases reachable?_eq_some.mp h with htable | ⟨htable, -, old, hrows, rfl⟩
  · rw [withRows, htable]
    show { db with tables := modifyTable name (fun u => { u with rows := t.rows }) db.tables } = db
    rw [hmodify db.tables htable]
  · rw [withRows, htable]
    show { db with sequence := some old } = db
    rw [← hrows]

/-- Recording a row number changes no table that has row numbers. -/
theorem reachable?_recordNumber {u : Table} (h : db.reachable? name = some t)
    (hcolumns : u.columns = t.columns) (cells : Cells) :
    (recordNumber u cells db).reachable? name = some t := by
  rw [recordNumber]
  cases hnumber : u.rowNumber? with
  | none => exact h
  | some i =>
      cases u.generated with
      | false => exact h
      | true =>
          rcases reachable?_eq_some.mp h with htable | ⟨-, -, old, -, rfl⟩
          · exact reachable?_eq_some.mpr (Or.inl htable)
          · rw [Table.rowNumber?, hcolumns] at hnumber
            exact nomatch hnumber

end Database

/-! ## New rows -/

namespace Table

/-- A new row takes a value in a column: the content that the column stores for it, or for
    NULL in the column of the row number a number. -/
def Takes (t : Table) (name : String) (v : Value) (cells : Cells) : Prop :=
  ∃ i c, t.position? name = some i ∧ t.columns[i]? = some c
    ∧ (cells[i]? = some (c.affinity.store (Stored.ofValue v))
      ∨ (t.rowNumber? = some i ∧ Stored.ofValue v = .null ∧ ∃ n, cells[i]? = some (.integer n)))

/-- Entries that go into one table have names that differ, without looking at their
    case. -/
def Separate (entries : List Entry) : Prop :=
  entries.Pairwise fun a b => sameName a.name b.name = false

theorem written?_of_mem {entries : List Entry} (h : Separate entries) {e : Entry}
    (he : e ∈ entries) {c : StoredColumn} (hname : sameName e.name c.name = true) :
    written? entries c = some (c.affinity.store (Stored.ofValue e.value)) := by
  rw [written?, find?_of_distinct h he hname]
  rfl

theorem column_of_position? {t : Table} {name : String} {i : Nat} (h : t.position? name = some i) :
    ∃ c, t.columns[i]? = some c ∧ sameName c.name name = true := by
  obtain ⟨hi, hname, -⟩ := List.findIdx?_eq_some_iff_getElem.mp h
  exact ⟨t.columns[i], List.getElem?_eq_getElem hi, hname⟩

/-- Numbering a row changes at most a NULL where the row number stands.  A number that
    is given has to be one, and is kept. -/
theorem numbered_eq_ok {t : Table} {lastUsed : Int} {cells numbered : Cells}
    (h : t.numbered lastUsed cells = .ok numbered) :
    numbered = cells ∨ ∃ i n, t.rowNumber? = some i ∧ cellAt cells i = .null
      ∧ numbered = cells.set i (.integer n) := by
  rw [Table.numbered] at h
  cases hnumber : t.rowNumber? with
  | none =>
      rw [hnumber] at h
      exact Or.inl (Except.ok.inj h).symm
  | some i =>
      rw [hnumber] at h
      -- only NULL asks for a number; other content than an integer is refused
      cases hcell : cellAt cells i with
      | null =>
          simp only [hcell] at h
          obtain ⟨n, -, hset⟩ := bind_eq_ok.mp h
          exact Or.inr ⟨i, n, rfl, hcell, (Except.ok.inj hset).symm⟩
      | integer n =>
          simp only [hcell] at h
          exact Or.inl (Except.ok.inj h).symm
      | _ =>
          simp only [hcell] at h
          exact nomatch h

theorem newRow_eq_ok {t : Table} {lastUsed : Int} {entries : List Entry} {cells : Cells}
    (h : t.newRow lastUsed entries = .ok cells) :
    t.numbered lastUsed (assemble t.columns entries) = .ok cells
      ∧ t.accept t.rows cells = .ok () := by
  obtain ⟨new, hnumbered, h⟩ := bind_eq_ok.mp h
  obtain ⟨_, haccept, h⟩ := bind_eq_ok.mp h
  cases h
  exact ⟨hnumbered, haccept⟩

/-- **A NEW ROW TAKES ITS ENTRIES.**  Every other column takes its default. -/
theorem newRow_takes {t : Table} {lastUsed : Int} {entries : List Entry} {cells : Cells}
    (h : t.newRow lastUsed entries = .ok cells) (hentries : Separate entries) {e : Entry}
    (he : e ∈ entries) (hcolumn : (t.position? e.name).isSome = true) :
    t.Takes e.name e.value cells := by
  obtain ⟨i, hposition⟩ := Option.isSome_iff_exists.mp hcolumn
  obtain ⟨c, hc, hname⟩ := column_of_position? hposition
  rw [sameName_comm] at hname
  have hassembled : (assemble t.columns entries)[i]?
      = some (c.affinity.store (Stored.ofValue e.value)) := by
    rw [assemble, List.getElem?_map, hc, Option.map_some, written?_of_mem hentries he hname]
    rfl
  refine ⟨i, c, hposition, hc, ?_⟩
  rcases numbered_eq_ok (newRow_eq_ok h).1 with rfl | ⟨j, n, hnumber, hnull, rfl⟩
  · exact Or.inl hassembled
  · by_cases hij : j = i
    · -- the row number was left to the table
      subst hij
      have hnone : c.affinity.store (Stored.ofValue e.value) = .null := by
        rw [cellAt, hassembled] at hnull
        exact hnull
      refine Or.inr ⟨hnumber, Affinity.store_eq_null.mp hnone, n, ?_⟩
      rw [List.getElem?_set_self (List.getElem?_eq_some_iff.mp hassembled).1]
    · exact Or.inl (by rw [List.getElem?_set_ne hij, hassembled])

end Table

/-! ## Insertions -/

namespace Database

theorem unknownColumn?_eq_none {t : Table} {names : List String} :
    unknownColumn? t names = none ↔ ∀ name ∈ names, (t.position? name).isSome = true := by
  rw [unknownColumn?, List.find?_eq_none]
  refine forall₂_congr fun name _ => ?_
  cases t.position? name <;> simp

/-- **AN INSERTION ADDS ONE ROW** at the end of its table, if it succeeds.  Words,
    table, columns and cells have each been checked before. -/
theorem insert_eq_ok {db db' : Database} {s : Insert} {name : String} {t : Table} {count : Nat}
    (htable : s.table = some name) (hreach : db.reachable? name = some t)
    (h : db.insert s = .ok (count, db')) :
    count = 1 ∧ (∀ word ∈ name :: s.columns, Word.isKeyword word = false)
      ∧ (∀ column ∈ s.columns, (t.position? column).isSome = true)
      ∧ ∃ cells, t.newRow (db.lastUsed t.name) (insertEntries t s) = .ok cells
        ∧ db'.reachable? name = some (t.append cells) := by
  have htarget : db.target name = .ok t := by rw [target, hreach]
  rw [insert, htable] at h
  obtain ⟨_, hwords, h⟩ := bind_eq_ok.mp h
  obtain ⟨u, hu, h⟩ := bind_eq_ok.mp h
  obtain rfl : t = u := Except.ok.inj (htarget.symm.trans hu)
  -- the steps of the insertion in their order
  cases hunknown : unknownColumn? t s.columns with
  | some column =>
      simp only [hunknown] at h
      exact nomatch h
  | none =>
      simp only [hunknown] at h
      obtain ⟨cells, hrow, h⟩ := bind_eq_ok.mp h
      cases h
      have hrows := reachable?_withRows hreach (t.append cells).rows
      rw [Word.check_insert_eq_ok, htable] at hwords
      exact ⟨rfl, hwords, unknownColumn?_eq_none.mp hunknown, cells, hrow,
        reachable?_recordNumber (u := t) hrows rfl cells⟩

end Database

end Gridbase
