import Gridbase.Proofs.Gateway.Put
import Gridbase.Proofs.Row
import Mathlib.Data.List.Forall2

/-! # Upsert — one row per key

    A column FIXES a value if it stores it as it is bound.  Under such a key the lookup, the
    update and the insertion address the same rows, those that hold the value (`Table.HasKey`).

    * A step keeps the rows of every other key, and leaves the key in a row (`KeepsKey`).
    * It leaves its rows settled (`put_leaves_settled`), so that the same step changes nothing
      more (`put_again`).  There is one exception: a row that leaves its number to the table
      is added, but the number that it gets cannot be cleared by an update. -/

namespace Gridbase

open Gridbase.Text Gridbase.Session

open Gateway

/-! ## What is kept -/

/-- A changed row has the columns that a row does not name as they were, each in its
    place. -/
def Table.KeepsUnnamed (t : Table) (row : Row) (old new : Cells) : Prop :=
  ∀ (j : Nat) (c : StoredColumn), t.columns[j]? = some c → row.get? c.name = none →
    new[j]? = old[j]?

/-- A row put under its key, with content `id` in column `i`: the rows of other keys stay as
    they are, and so do the columns that the row does not name. -/
structure KeepsKey (t t' : Table) (i : Nat) (id : Stored) (row : Row) (outcome : Upserted) :
    Prop where
  frame : t' = { t with rows := t'.rows }
  updated : outcome = .updated → t'.rows.length = t.rows.length
  inserted : outcome = .inserted → t'.rows.length = t.rows.length + 1
  found : outcome = .updated ↔ ∃ cells ∈ t.rows, Table.holdsKey i id cells = true
  others : t'.rows.filter (fun cells => !Table.holdsKey i id cells)
    = t.rows.filter (fun cells => !Table.holdsKey i id cells)
  unnamed : outcome = .updated → List.Forall₂ (t.KeepsUnnamed row) t.rows t'.rows
  held : ∃ cells ∈ t'.rows, Table.holdsKey i id cells = true
  single : t.key? = some i → t'.rows.countP (Table.holdsKey i id) = 1

section

variable {t : Table} {key : String} {row : Row} {i : Nat} {c : StoredColumn} {v : Value}
  (hkey : t.position? key = some i) (hcolumn : t.columns[i]? = some c)
  (hget : row.get? key = some v) (hfix : c.Fixes v)

include hkey hcolumn hget hfix

theorem written?_key : Table.written? row.entries c = some (Stored.ofValue v) := by
  obtain ⟨c', hc', hname⟩ := Table.column_of_position? hkey
  obtain rfl : c = c' := Option.some.inj (hcolumn.symm.trans hc')
  rw [Table.written?_eq, Row.get?_congr hname, hget, Option.map_some, hfix.stored]

/-- A row of the key has it as it is bound once the row is written. -/
theorem getElem?_assigned_key {cells : Cells}
    (h : Table.holdsKey i (Stored.ofValue v) cells = true) :
    (Table.assigned t.columns row.entries cells)[i]? = some (Stored.ofValue v) := by
  cases hcell : cells[i]? with
  | some x =>
      exact Table.getElem?_assigned_written hcolumn (written?_key hkey hcolumn hget hfix) hcell
  | none =>
      rw [Table.holdsKey, Table.cellAt, hcell, Option.getD_none,
        Stored.null_same_eq_false hfix.notNull, Bool.and_false] at h
      cases h

theorem getElem?_newRow_key {lastUsed : Int} {cells : Cells}
    (h : t.newRow lastUsed row.entries = .ok cells) : cells[i]? = some (Stored.ofValue v) := by
  have hassembled : (Table.assemble t.columns row.entries)[i]? = some (Stored.ofValue v) := by
    rw [Table.getElem?_assemble hcolumn, written?_key hkey hcolumn hget hfix]
    rfl
  rcases Table.numbered_eq_ok (Table.newRow_eq_ok h).1 with rfl | ⟨j, n, -, hnull, rfl⟩
  · exact hassembled
  · have hij : j ≠ i := by
      rintro rfl
      rw [Table.cellAt, hassembled] at hnull
      exact hfix.notNull hnull
    rw [List.getElem?_set_ne hij]
    exact hassembled

/-- **AN INSERTION KEEPS THE KEY.**  No row held the key before, so the new one is the
    only one. -/
theorem keepsKey_of_newRow {lastUsed : Int} {cells : Cells}
    (h : t.newRow lastUsed row.entries = .ok cells)
    (hnone : ∀ cells ∈ t.rows, Table.holdsKey i (Stored.ofValue v) cells = false) :
    KeepsKey t (t.append cells) i (Stored.ofValue v) row .inserted := by
  have hholds : Table.holdsKey i (Stored.ofValue v) cells = true :=
    Table.holdsKey_of_cell hfix.notNull (getElem?_newRow_key hkey hcolumn hget hfix h)
  -- no row had the key before
  have hzero : t.rows.countP (Table.holdsKey i (Stored.ofValue v)) = 0 :=
    List.countP_eq_zero.mpr fun a ha => by simp [hnone a ha]
  refine ⟨rfl, (nomatch ·), fun _ => List.length_append, ⟨(nomatch ·), ?_⟩, ?_, (nomatch ·), ?_, ?_⟩
  · rintro ⟨a, ha, hselected⟩
    exact nomatch (hnone a ha).symm.trans hselected
  · show (t.rows ++ [cells]).filter _ = _
    rw [List.filter_append, List.filter_cons_of_neg (by simp [hholds]), List.filter_nil,
      List.append_nil]
  · exact ⟨cells, List.mem_append_right _ (List.mem_singleton.mpr rfl), hholds⟩
  · intro _
    show (t.rows ++ [cells]).countP _ = 1
    rw [List.countP_append, hzero, List.countP_cons_of_pos hholds, List.countP_nil]

/-- A row has the key after the update if it had it before. -/
theorem holdsKey_updated (cells : Cells) :
    Table.holdsKey i (Stored.ofValue v) (if Table.holdsKey i (Stored.ofValue v) cells then
        Table.assigned t.columns row.entries cells else cells)
      = Table.holdsKey i (Stored.ofValue v) cells := by
  cases hcells : Table.holdsKey i (Stored.ofValue v) cells with
  | false => exact hcells
  | true =>
      exact Table.holdsKey_of_cell hfix.notNull
        (getElem?_assigned_key hkey hcolumn hget hfix hcells)

section

variable {rows : List Cells}
  (h : t.updateRows (Table.holdsKey i (Stored.ofValue v)) row.entries [] t.rows = .ok rows)

include h

/-- The rows of other keys stay as they are. -/
theorem filter_updateRows :
    rows.filter (fun cells => !Table.holdsKey i (Stored.ofValue v) cells)
      = t.rows.filter fun cells => !Table.holdsKey i (Stored.ofValue v) cells := by
  rw [Table.updateRows_eq_map h, List.reverse_nil, List.nil_append, List.filter_map]
  simp only [Function.comp_def, holdsKey_updated hkey hcolumn hget hfix]
  refine (List.map_congr_left fun cells hcells => ?_).trans (List.map_id _)
  have hother := (List.mem_filter.mp hcells).2
  rw [Bool.not_eq_true'] at hother
  rw [hother]
  rfl

/-- No two rows have the key, if it is the key of the table. -/
theorem countP_updateRows (hprimary : t.key? = some i) :
    rows.countP (Table.holdsKey i (Stored.ofValue v)) ≤ 1 := by
  have hsettled := Table.settled_of_updateRows h
  refine countP_le_one (hsettled.separated.imp_of_mem fun {a b} ha _ hapart hboth => ?_)
  -- the first row has the key as it is bound, and the second would repeat it
  have hcell : a[i]? = some (Stored.ofValue v) := by
    rw [← (hsettled.kept a ha hboth.1).assigned]
    exact getElem?_assigned_key hkey hcolumn hget hfix hboth.1
  have hrepeats := hapart (Or.inl hboth.1) i hprimary
  rw [Table.cellAt, hcell, Option.getD_some, hboth.2] at hrepeats
  cases hrepeats

/-- **AN UPDATE KEEPS THE KEY.**  The rows that hold it afterwards are those that held
    it before, as the key is written over itself. -/
theorem keepsKey_of_updateRows
    (hfound : ∃ cells ∈ t.rows, Table.holdsKey i (Stored.ofValue v) cells = true) :
    KeepsKey t { t with rows } i (Stored.ofValue v) row .updated := by
  have hmap := Table.updateRows_eq_map h
  rw [List.reverse_nil, List.nil_append] at hmap
  -- the key that is written is the one that was found
  have hheld : ∃ cells ∈ rows, Table.holdsKey i (Stored.ofValue v) cells = true := by
    obtain ⟨cells, hcells, hselected⟩ := hfound
    refine ⟨_, ?_, (holdsKey_updated hkey hcolumn hget hfix cells).trans hselected⟩
    rw [hmap]
    exact List.mem_map.mpr ⟨cells, hcells, rfl⟩
  refine ⟨rfl, fun _ => ?_, (nomatch ·), ⟨fun _ => hfound, fun _ => rfl⟩,
    filter_updateRows hkey hcolumn hget hfix h, fun _ => ?_, hheld, fun hprimary => ?_⟩
  · show rows.length = _
    rw [hmap, List.length_map]
  · show List.Forall₂ _ t.rows rows
    rw [hmap, List.forall₂_map_right_iff, List.forall₂_same]
    intro cells _ j c' hc' hunnamed
    -- rows without the key stay; those with it change in the named columns only
    cases Table.holdsKey i (Stored.ofValue v) cells with
    | false => rfl
    | true =>
        refine Table.getElem?_assigned_unwritten hc' ?_
        rw [Table.written?_eq, hunnamed, Option.map_none]
  · exact Nat.le_antisymm (countP_updateRows hkey hcolumn hget hfix h hprimary)
      (List.countP_pos_iff.mpr hheld)

end

/-! ## Steps under a key -/

/-- What a step has done to a table whose column of the key fixes the value. -/
theorem Database.put_eq_ok_of_key {db db' : Database} {table : String} {outcome : Upserted}
    (hreach : db.reachable? table = some t)
    (h : db.put table key row v = .ok (outcome, db')) :
    Database.Writable t table key row
      ∧ PutStep db table t (Table.holdsKey i (Stored.ofValue v)) row outcome db' := by
  obtain ⟨t₁, terms, hreach₁, hterms, hwrite, hstep⟩ := put_eq_ok (Row.entries_ne_nil hget) h
  obtain rfl : t = t₁ := Option.some.inj (hreach.symm.trans hreach₁)
  obtain ⟨terms₁, hterms₁, hselects⟩ := Search.selects_key hkey hcolumn hfix
  obtain rfl : terms = terms₁ := Except.ok.inj (hterms.symm.trans hterms₁)
  rw [hselects] at hstep
  exact ⟨hwrite, hstep⟩

/-- **WHAT IS KEPT** of the table when a row is put under its key.  One of the two laws
    above applies, by what the lookup has found. -/
theorem Database.put_keepsKey {db db' : Database} {table : String} {outcome : Upserted}
    (hreach : db.reachable? table = some t)
    (h : db.put table key row v = .ok (outcome, db')) :
    ∃ rows, db'.reachable? table = some { t with rows }
      ∧ KeepsKey t { t with rows } i (Stored.ofValue v) row outcome := by
  obtain ⟨-, hstep⟩ := put_eq_ok_of_key hkey hcolumn hget hfix hreach h
  cases hstep with
  | inserted none new after =>
      exact ⟨_, after, keepsKey_of_newRow hkey hcolumn hget hfix new none⟩
  | updated found changed =>
      exact ⟨_, reachable?_withRows hreach _,
        keepsKey_of_updateRows hkey hcolumn hget hfix changed found⟩

/-- **WHAT IS SETTLED** afterwards, unless the row leaves its number to the table.  A
    row that left its number to the table does not hold its own entry, as the number is
    not NULL any more. -/
theorem Database.put_leaves_settled {db db' : Database} {table : String} {outcome : Upserted}
    (hreach : db.reachable? table = some t)
    (h : db.put table key row v = .ok (outcome, db')) {rows : List Cells}
    (hafter : db'.reachable? table = some { t with rows })
    (hnumber : outcome = .inserted → ¬ t.ClearsNumber row) :
    t.Settled (Table.holdsKey i (Stored.ofValue v)) row.entries rows := by
  obtain ⟨-, hstep⟩ := put_eq_ok_of_key hkey hcolumn hget hfix hreach h
  cases hstep with
  | inserted none new after =>
      obtain rfl := congrArg Table.rows (Option.some.inj (after.symm.trans hafter))
      exact Table.settled_of_newRow new (hnumber rfl) none
  | updated found changed =>
      obtain rfl := congrArg Table.rows
        (Option.some.inj ((reachable?_withRows hreach _).symm.trans hafter))
      exact Table.settled_of_updateRows changed

/-- **A ROW PUT AGAIN** is updated without effect, or refused if it clears the row
    number.  The second run is an update in any case, since the first has left a row
    with the key. -/
theorem Database.put_again {db db' : Database} {table : String} {outcome : Upserted}
    (hreach : db.reachable? table = some t)
    (h : db.put table key row v = .ok (outcome, db')) :
    (¬ t.ClearsNumber row → db'.put table key row v = .ok (.updated, db'))
      ∧ (t.ClearsNumber row → ∃ fault, db'.put table key row v = .error fault) := by
  obtain ⟨rows, hafter, hkeeps⟩ := put_keepsKey hkey hcolumn hget hfix hreach h
  constructor
  · intro hnumber
    have hsettled := put_leaves_settled hkey hcolumn hget hfix hreach h hafter fun _ => hnumber
    obtain ⟨hwrite, -⟩ := put_eq_ok_of_key hkey hcolumn hget hfix hreach h
    obtain ⟨terms, hterms, hselects⟩ := Search.selects_key hkey hcolumn hfix
    rw [← hselects] at hsettled
    have hheld := hkeeps.held
    rw [← hselects] at hheld
    exact put_settled hafter hterms ⟨hwrite.key, hwrite.words, hwrite.known⟩ hheld (hsettled.withRows rows)
  · intro hnumber
    cases hput : db'.put table key row v with
    | error fault => exact ⟨fault, rfl⟩
    | ok result =>
        -- the key is found now, so its row would be left as it is, and has a number
        obtain ⟨outcome', db''⟩ := result
        let t' : Table := { t with rows }
        obtain ⟨rows', hafter', hkeeps'⟩ :=
          put_keepsKey (t := t') hkey hcolumn hget hfix hafter hput
        obtain rfl : outcome' = .updated := hkeeps'.found.mpr hkeeps.held
        have hsettled : t'.Settled _ row.entries rows' :=
          put_leaves_settled (t := t') hkey hcolumn hget hfix hafter hput hafter' (nomatch ·)
        obtain ⟨cells, hcells, hholds⟩ := hkeeps'.held
        exact absurd hnumber (hsettled.kept cells hcells hholds).not_clearsNumber

/-- The row number is not cleared by a row whose key is the row number. -/
theorem Table.not_clearsNumber_of_key (hnumber : ∀ j, t.rowNumber? = some j → j = i) :
    ¬ t.ClearsNumber row := by
  rintro ⟨j, c', v', hj, hc', hv', hnull⟩
  obtain rfl : j = i := hnumber j hj
  obtain rfl : c = c' := Option.some.inj (hcolumn.symm.trans hc')
  obtain ⟨c₁, hc₁, hname⟩ := column_of_position? hkey
  obtain rfl : c = c₁ := Option.some.inj (hcolumn.symm.trans hc₁)
  rw [Row.get?_congr hname, hget] at hv'
  obtain rfl : v = v' := Option.some.inj hv'
  exact hfix.notNull hnull

end

/-! ## The whole operation -/

/-- A row has its key in column `i` of a table, which fixes its value `v`.  All words stand for
    columns: the key is read as its column, and no name of the row stands for a row number that
    no column shows. -/
structure Table.HasKey (t : Table) (key : String) (row : Row) (i : Nat) (c : StoredColumn)
    (v : Value) : Prop where
  reads : t.Reads key
  writes : t.Writes row
  position : t.position? key = some i
  column : t.columns[i]? = some c
  value : row.get? key = some v
  fixes : c.Fixes v

namespace Gateway

/-- **A ROW IS PUT UNDER ITS KEY** in a table whose column of the key fixes the value.  A
    failure leaves the database as it is.  A success keeps the rows of the other keys, and
    the columns that the row does not name; done once more it changes nothing, and succeeds
    as an update unless the row clears the row number. -/
theorem upsert_keeps_key {g : Gateway} {table key : String} {row : Row} {s s' : Session}
    {result : Except Failure Upserted} {t : Table} {i : Nat} {c : StoredColumn} {v : Value}
    (hreach : s.database.reachable? table = some t) (hkey : t.HasKey key row i c v)
    (hrun : (g.upsert table row key).run s = (result, s')) :
    (∀ f, result = .error f → s'.database = s.database)
      ∧ ∀ outcome, result = .ok outcome →
        (∃ t', s'.database.reachable? table = some t'
          ∧ KeepsKey t t' i (Stored.ofValue v) row outcome)
        ∧ ∃ again s₂, (g.upsert table row key).run s' = (again, s₂)
          ∧ s₂.database = s'.database ∧ (again = .ok .updated ↔ ¬ t.ClearsNumber row) := by
  obtain ⟨-, -, hkey, hcolumn, hget, hfix⟩ := hkey
  constructor
  · rintro f rfl
    exact upsert_eq_error hrun
  · rintro outcome rfl
    obtain ⟨hchecks, id, hid, hput⟩ := upsert_eq_ok hrun
    obtain rfl : v = id := Option.some.inj (hget.symm.trans hid)
    obtain ⟨hagain, hrefused⟩ := Database.put_again hkey hcolumn hget hfix hreach hput
    obtain ⟨rows, hafter, hkeeps⟩ := Database.put_keepsKey hkey hcolumn hget hfix hreach hput
    refine ⟨⟨_, hafter, hkeeps⟩, ?_⟩
    have hrerun := run_upsert_of_checks hchecks hget s'
    -- again the same, unless the row clears the row number, which nothing refills
    by_cases hnumber : t.ClearsNumber row
    · obtain ⟨fault, hfault⟩ := hrefused hnumber
      rw [hfault] at hrerun
      obtain ⟨s₂, hrun₂, hsame⟩ := hrerun
      exact ⟨_, s₂, hrun₂, hsame, (nomatch ·), fun hnot => absurd hnumber hnot⟩
    · rw [hagain hnumber] at hrerun
      obtain ⟨s₂, hrun₂, hsame⟩ := hrerun
      exact ⟨_, s₂, hrun₂, hsame, fun _ => hnumber, fun _ => rfl⟩

theorem run_upsert_of_outcome {g : Gateway} {table key : String} {row : Row} {id : Value}
    {s : Session} (hchecks : upsertChecks g table row key = .ok ())
    (hget : row.get? key = some id) {outcome : Upserted}
    (h : (s.database.put table key row id).map Prod.fst = .ok outcome) :
    ∃ s', (g.upsert table row key).run s = (.ok outcome, s') := by
  have hrun := run_upsert_of_checks hchecks hget s
  cases hput : s.database.put table key row id with
  | error fault =>
      rw [hput] at h
      exact nomatch h
  | ok result =>
      rw [hput] at h hrun
      obtain ⟨s', hrun, -⟩ := hrun
      cases h
      exact ⟨s', hrun⟩

/-- A table of parts, each with a number and a code. -/
def parts : Table where
  name := "parts"
  writtenName := "parts"
  definition := " (id INTEGER PRIMARY KEY, code TEXT)"
  generated := false
  columns := [
    { name := "id", declaredType := "INTEGER", primaryKey := true },
    { name := "code", declaredType := "TEXT" }]
  rows := [[.integer 1, .text "a"], [.integer 2, .text "b"]]

/-- A session with that table. -/
def partsSession : Session where
  database := { tables := [parts] }

/-- A part with another code.  The name of its number is spelled otherwise than in the
    table. -/
def recodedPart : Row := Row.ofList [("ID", .int 2), ("code", .text "c")]

/-- A part that leaves its number to the table: the key of the upsert is the code, and
    the number is NULL. -/
def newPart : Row := Row.ofList [("code", .text "c"), ("id", .null)]

/-- A part that is put under its number is changed, and once more it is not.  The second
    time the row is found under the same number and already has the code. -/
theorem recodedPart_keeps_key :
    ∃ s' s₂ t', (upsert ⟨.ok "memory"⟩ "parts" recodedPart "id").run partsSession
        = (.ok .updated, s')
      ∧ s'.database.reachable? "parts" = some t'
      ∧ KeepsKey parts t' 0 (.integer 2) recodedPart .updated
      ∧ (upsert ⟨.ok "memory"⟩ "parts" recodedPart "id").run s' = (.ok .updated, s₂)
      ∧ s₂.database = s'.database := by
  have hreach : partsSession.database.reachable? "parts" = some parts := by decide +kernel
  have hkey : parts.position? "id" = some 0 := by decide +kernel
  have hcolumn : parts.columns[0]?
      = some { name := "id", declaredType := "INTEGER", primaryKey := true } := rfl
  have hget : recodedPart.get? "id" = some (.int 2) := by decide +kernel
  have hfix := StoredColumn.fixes_int (StoredColumn.affinity_of_isRowNumber
    (c := { name := "id", declaredType := "INTEGER", primaryKey := true }) (by decide +kernel)) 2
  have houtcome : (partsSession.database.put "parts" "id" recodedPart (.int 2)).map Prod.fst
      = .ok .updated := by
    obtain ⟨terms, hterms, hselects⟩ := Search.selects_key hkey hcolumn hfix
    rw [Database.put_eq hreach hterms (by decide +kernel), hselects]
    decide +kernel
  obtain ⟨s', hrun⟩ := run_upsert_of_outcome (g := ⟨.ok "memory"⟩) (by decide +kernel) hget houtcome
  obtain ⟨⟨t', hreach', hkeeps⟩, again, s₂, hrun₂, hsame, hagain⟩ :=
    (upsert_keeps_key hreach
      ⟨by decide +kernel, by decide +kernel, hkey, hcolumn, hget, hfix⟩ hrun).2 _ rfl
  have hnumber : ∀ j, parts.rowNumber? = some j → j = 0 := by
    rintro j ⟨⟩
    rfl
  obtain rfl := hagain.mpr (Table.not_clearsNumber_of_key hkey hcolumn hget hfix hnumber)
  exact ⟨s', s₂, t', hrun, hreach', hkeeps, hrun₂, hsame⟩

/-- A row is not always updated when it is put again: a row that leaves its number to the
    table is added, but then its number cannot be cleared. -/
theorem upsert_not_always_repeated :
    ¬ ∀ (g : Gateway) (table key : String) (row : Row) (s s' : Session) (t : Table) (i : Nat)
        (c : StoredColumn) (v : Value) (outcome : Upserted),
        Dialect.sqlite.isValidName table = true →
        (∀ name ∈ row.names, Dialect.sqlite.isValidName name = true) →
        s.database.reachable? table = some t → t.position? key = some i →
        t.columns[i]? = some c → row.get? key = some v →
        ((c.isRowNumber = true ∧ ∃ n, v = .int n) ∨ (c.affinity = .text ∧ ∃ x, v = .text x)) →
        (g.upsert table row key).run s = (.ok outcome, s') →
        ∃ s₂, (g.upsert table row key).run s' = (.ok .updated, s₂)
          ∧ s₂.database = s'.database := by
  intro hclaim
  have hreach : partsSession.database.reachable? "parts" = some parts := by decide +kernel
  have hkey : parts.position? "code" = some 1 := by decide +kernel
  have hcolumn : parts.columns[1]? = some { name := "code", declaredType := "TEXT" } := rfl
  have hget : newPart.get? "code" = some (.text "c") := by decide +kernel
  have htext : StoredColumn.affinity { name := "code", declaredType := "TEXT" } = .text := by
    decide +kernel
  have hfix := StoredColumn.fixes_text htext "c"
  have hclears : parts.ClearsNumber newPart :=
    ⟨0, _, .null, rfl, rfl, by decide +kernel, rfl⟩
  have houtcome : (partsSession.database.put "parts" "code" newPart (.text "c")).map Prod.fst
      = .ok .inserted := by
    obtain ⟨terms, hterms, hselects⟩ := Search.selects_key hkey hcolumn hfix
    rw [Database.put_eq hreach hterms (by decide +kernel), hselects]
    decide +kernel
  obtain ⟨s', hrun⟩ := run_upsert_of_outcome (g := ⟨.ok "memory"⟩) (by decide +kernel) hget houtcome
  obtain ⟨s₂, hrun₂, -⟩ := hclaim _ _ _ _ _ _ _ _ _ _ _ (by decide +kernel) (by decide +kernel)
    hreach hkey hcolumn hget (Or.inr ⟨htext, "c", rfl⟩) hrun
  -- both runs have made their steps, but the second step is refused
  obtain ⟨-, id, hid, hput⟩ := upsert_eq_ok hrun
  obtain rfl : .text "c" = id := Option.some.inj (hget.symm.trans hid)
  obtain ⟨-, id₂, hid₂, hput₂⟩ := upsert_eq_ok hrun₂
  obtain rfl : .text "c" = id₂ := Option.some.inj (hget.symm.trans hid₂)
  obtain ⟨fault, hfault⟩ :=
    (Database.put_again hkey hcolumn hget hfix hreach hput).2 hclears
  exact nomatch hfault.symm.trans hput₂

end Gateway

end Gridbase
