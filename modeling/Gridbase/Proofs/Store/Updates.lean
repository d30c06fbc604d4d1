import Gridbase.Proofs.Store.Comparison

/-! # Rows that are updated

    An update writes to the selected rows one after the other, and each is checked against
    all others as they are by then.

    * A row stays APART from another if it does not repeat its key, and this is symmetric
      (`Table.Apart.symm`).  So the order of the checks does not matter.
    * Rows are SETTLED if the selected ones already hold what is written and all checks on
      them succeed.  Every update that succeeds leaves settled rows
      (`settled_of_updateRows`), and so does an insertion that leaves no content to the table
      (`settled_of_newRow`).
    * Settled rows are updated without effect (`updateRows_settled`). -/

namespace Gridbase

open Gridbase.Text

namespace Table

variable {t : Table} {selected : Cells → Bool} {entries : List Entry}

/-! ## Assignments -/

theorem written?_eq (row : Row) (c : StoredColumn) :
    written? row.entries c
      = (row.get? c.name).map fun v => c.affinity.store (Stored.ofValue v) := by
  rw [written?, Row.get?, Option.map_map]
  rfl

theorem getElem?_assigned (columns : List StoredColumn) (entries : List Entry) (cells : Cells)
    (j : Nat) :
    (assigned columns entries cells)[j]?
      = match columns[j]?, cells[j]? with
        | some c, some x => some ((written? entries c).getD x)
        | _, _ => none := by
  rw [assigned, List.map_zip_eq_zipWith, List.getElem?_zipWith]
  cases columns[j]? <;> cases cells[j]? <;> rfl

/-- Assignments that have been made change nothing. -/
theorem assigned_assigned (columns : List StoredColumn) (entries : List Entry) (cells : Cells) :
    assigned columns entries (assigned columns entries cells) = assigned columns entries cells := by
  refine List.ext_getElem? fun j => ?_
  rw [getElem?_assigned, getElem?_assigned]
  cases columns[j]? with
  | none => rfl
  | some c =>
      cases cells[j]? with
      | none => rfl
      | some x => cases hwritten : written? entries c <;> simp [hwritten]

theorem getElem?_assigned_written {columns : List StoredColumn} {cells : Cells} {j : Nat}
    {c : StoredColumn} {x y : Stored} (hcolumn : columns[j]? = some c)
    (hwritten : written? entries c = some y) (hcell : cells[j]? = some x) :
    (assigned columns entries cells)[j]? = some y := by
  simp only [getElem?_assigned, hcolumn, hcell, hwritten, Option.getD_some]

theorem getElem?_assigned_unwritten {columns : List StoredColumn} {cells : Cells} {j : Nat}
    {c : StoredColumn} (hcolumn : columns[j]? = some c) (hwritten : written? entries c = none) :
    (assigned columns entries cells)[j]? = cells[j]? := by
  rw [getElem?_assigned, hcolumn]
  cases cells[j]? with
  | none => rfl
  | some x => simp only [hwritten, Option.getD_none]

/-! ## Checks -/

/-- A row does not repeat the key of another.  A table without a key allows any rows
    side by side. -/
def Apart (t : Table) (a b : Cells) : Prop :=
  ∀ k, t.key? = some k → holdsKey k (cellAt a k) b = false

/-- Keys are equal both ways. -/
theorem holdsKey_comm (k : Nat) (a b : Cells) :
    holdsKey k (cellAt a k) b = holdsKey k (cellAt b k) a := by
  have hone : ∀ x y : Stored, (!x.isNull && y.same x) = true → (!y.isNull && x.same y) = true := by
    intro x y h
    rw [Bool.and_eq_true, Bool.not_eq_true'] at h
    obtain ⟨hx, hsame⟩ := h
    have hy : y ≠ .null := by
      rintro rfl
      rw [Stored.null_same_eq_false (Stored.isNull_eq_false.mp hx)] at hsame
      exact nomatch hsame
    rw [Stored.isNull_eq_false.mpr hy, Stored.same_comm, hsame]
    rfl
  rw [Bool.eq_iff_iff]
  exact ⟨hone _ _, hone _ _⟩

theorem Apart.symm {a b : Cells} (h : t.Apart a b) : t.Apart b a := by
  intro k hk
  rw [holdsKey_comm]
  exact h k hk

/-- **A ROW IS ACCEPTED** if it leaves out nothing that is needed and stays apart from all
    others. -/
theorem accept_eq_ok {others : List Cells} {cells : Cells} :
    t.accept others cells = .ok ()
      ↔ missing? t.columns cells = none ∧ ∀ o ∈ others, t.Apart cells o := by
  rw [accept]
  cases missing? t.columns cells with
  | some c => exact ⟨(nomatch ·), fun h => nomatch h.1⟩
  | none =>
      cases hkey : t.key? with
      | none => exact ⟨fun _ => ⟨rfl, fun o _ k hk => nomatch hkey.symm.trans hk⟩, fun _ => rfl⟩
      | some k =>
          -- apart means apart in the key, where there is one
          have hapart : ∀ o, t.Apart cells o ↔ holdsKey k (cellAt cells k) o = false := by
            intro o
            refine ⟨fun h => h k hkey, fun h k' hk' => ?_⟩
            obtain rfl : k = k' := Option.some.inj (hkey.symm.trans hk')
            exact h
          simp only [hapart]
          cases hany : others.any (holdsKey k (cellAt cells k)) with
          | true =>
              obtain ⟨o, ho, hrepeats⟩ := List.any_eq_true.mp hany
              refine ⟨(nomatch ·), fun h => ?_⟩
              rw [h.2 o ho] at hrepeats
              exact nomatch hrepeats
          | false =>
              have hnone := List.any_eq_false.mp hany
              simp only [Bool.false_eq_true, if_false, true_and, true_iff]
              exact fun o ho => Bool.eq_false_iff.mpr (hnone o ho)

/-- A row that an update may leave as it is: it has what is assigned already, its number
    is one, and it lacks nothing. -/
structure Kept (t : Table) (entries : List Entry) (cells : Cells) : Prop where
  assigned : Table.assigned t.columns entries cells = cells
  number : t.checkNumber cells = .ok ()
  complete : missing? t.columns cells = none

/-- Two rows stay apart if one of them is selected.  Others are not looked at by an
    update. -/
def Separated (t : Table) (selected : Cells → Bool) (a b : Cells) : Prop :=
  (selected a = true ∨ selected b = true) → t.Apart a b

theorem Separated.symm {a b : Cells} (h : t.Separated selected a b) :
    t.Separated selected b a := fun hselected => (h hselected.symm).symm

/-- The selected rows may be left as they are, and stay apart from all others.  Then an
    update of them changes nothing and is not refused. -/
structure Settled (t : Table) (selected : Cells → Bool) (entries : List Entry)
    (rows : List Cells) : Prop where
  kept : ∀ cells ∈ rows, selected cells = true → t.Kept entries cells
  separated : rows.Pairwise (t.Separated selected)

/-- Whether rows are settled does not depend on the rows of the table. -/
theorem Settled.withRows {rows : List Cells} (h : t.Settled selected entries rows)
    (others : List Cells) : { t with rows := others }.Settled selected entries rows where
  kept cells hcells hselected :=
    let hkept := h.kept cells hcells hselected
    ⟨hkept.assigned, hkept.number, hkept.complete⟩
  separated := h.separated

/-! ## Updates -/

theorem updateRows_selected {done rest rows' : List Cells} {cells : Cells}
    (hselected : selected cells = true)
    (h : t.updateRows selected entries done (cells :: rest) = .ok rows') :
    t.Kept entries (Table.assigned t.columns entries cells)
      ∧ (∀ o ∈ done ++ rest, t.Apart (Table.assigned t.columns entries cells) o)
      ∧ t.updateRows selected entries (Table.assigned t.columns entries cells :: done) rest
        = .ok rows' := by
  rw [updateRows, if_pos hselected] at h
  obtain ⟨_, hnumber, h⟩ := bind_eq_ok.mp h
  obtain ⟨_, haccept, h⟩ := bind_eq_ok.mp h
  obtain ⟨hcomplete, hapart⟩ := accept_eq_ok.mp haccept
  exact ⟨⟨assigned_assigned .., hnumber, hcomplete⟩, hapart, h⟩

theorem updateRows_unselected {done rest : List Cells} {cells : Cells}
    (hselected : selected cells = false) :
    t.updateRows selected entries done (cells :: rest)
      = t.updateRows selected entries (cells :: done) rest := by
  rw [updateRows, if_neg (by simp [hselected])]

/-- **AN UPDATE CHANGES THE SELECTED ROWS** in their places, and no others.  By
    induction over the rows, with those that are done already in front. -/
theorem updateRows_eq_map {rows : List Cells} :
    ∀ {done rows' : List Cells}, t.updateRows selected entries done rows = .ok rows' →
      rows' = done.reverse ++ rows.map fun cells =>
        if selected cells then Table.assigned t.columns entries cells else cells := by
  -- induction on the rows left, with those done left open
  induction rows with
  | nil =>
      intro done rows' h
      rw [List.map_nil, List.append_nil]
      exact (Except.ok.inj h).symm
  | cons cells rest ih =>
      intro done rows' h
      cases hselected : selected cells with
      | true =>
          obtain ⟨-, -, h⟩ := updateRows_selected hselected h
          rw [ih h, List.reverse_cons, List.append_assoc, List.map_cons, hselected]
          rfl
      | false =>
          rw [updateRows_unselected hselected] at h
          rw [ih h, List.reverse_cons, List.append_assoc, List.map_cons, hselected]
          rfl

/-- **AN UPDATE LEAVES SETTLED ROWS.**  Each of them was checked against all others when
    it was written, those before it as they are and those behind it as they were. -/
theorem settled_of_updateRows {rows rows' : List Cells}
    (h : t.updateRows selected entries [] rows = .ok rows') :
    t.Settled selected entries rows' := by
  -- what is done is settled, and stays apart from the rows to come that stay as they are
  have hrun : ∀ (rows done : List Cells) {rows' : List Cells},
      t.Settled selected entries done →
      (∀ a ∈ done, selected a = true → ∀ b ∈ rows, selected b = false → t.Apart a b) →
      t.updateRows selected entries done rows = .ok rows' →
      t.Settled selected entries rows' := by
    intro rows
    induction rows with
    | nil =>
        intro done rows' hdone _ h
        obtain rfl : done.reverse = rows' := Except.ok.inj h
        refine ⟨fun cells hcells => hdone.kept cells (List.mem_reverse.mp hcells), ?_⟩
        rw [List.pairwise_reverse]
        exact hdone.separated.imp Separated.symm
    | cons cells rest ih =>
        intro done rows' hdone hahead h
        cases hselected : selected cells with
        | true =>
            obtain ⟨hkept, hapart, h⟩ := updateRows_selected hselected h
            refine ih _ ⟨?_, ?_⟩ ?_ h
            · intro a ha hsel
              rcases List.mem_cons.mp ha with rfl | ha
              · exact hkept
              · exact hdone.kept a ha hsel
            · refine List.pairwise_cons.mpr ⟨fun b hb _ => ?_, hdone.separated⟩
              exact hapart b (List.mem_append_left _ hb)
            · intro a ha hsel b hb hother
              rcases List.mem_cons.mp ha with rfl | ha
              · exact hapart b (List.mem_append_right _ hb)
              · exact hahead a ha hsel b (List.mem_cons_of_mem _ hb) hother
        | false =>
            rw [updateRows_unselected hselected] at h
            refine ih _ ⟨?_, ?_⟩ ?_ h
            · intro a ha hsel
              rcases List.mem_cons.mp ha with rfl | ha
              · exact absurd (hselected.symm.trans hsel) Bool.false_ne_true
              · exact hdone.kept a ha hsel
            · refine List.pairwise_cons.mpr ⟨fun b hb hsel => ?_, hdone.separated⟩
              rcases hsel with hsel | hsel
              · exact absurd (hselected.symm.trans hsel) Bool.false_ne_true
              · exact (hahead b hb hsel cells (List.mem_cons_self ..) hselected).symm
            · intro a ha hsel b hb hother
              rcases List.mem_cons.mp ha with rfl | ha
              · exact absurd (hselected.symm.trans hsel) Bool.false_ne_true
              · exact hahead a ha hsel b (List.mem_cons_of_mem _ hb) hother
  have hnil : t.Settled selected entries [] := ⟨fun _ hcells => (nomatch hcells), .nil⟩
  exact hrun rows [] hnil (fun _ ha => nomatch ha) h

/-- **SETTLED ROWS ARE UPDATED WITHOUT EFFECT.**  By induction over the rows: none of
    the checks fails, and each row is written as it is. -/
theorem updateRows_settled {rows : List Cells} (h : t.Settled selected entries rows) :
    t.updateRows selected entries [] rows = .ok rows := by
  -- the invariant: rows done and rows left are kept and separated
  have hrun : ∀ rows done : List Cells,
      (∀ cells ∈ rows, selected cells = true → t.Kept entries cells) →
      rows.Pairwise (t.Separated selected) →
      (∀ a ∈ done, ∀ b ∈ rows, t.Separated selected a b) →
      t.updateRows selected entries done rows = .ok (done.reverse ++ rows) := by
    intro rows
    induction rows with
    | nil =>
        intro done _ _ _
        rw [List.append_nil]
        rfl
    | cons cells rest ih =>
        intro done hkept hseparated hdone
        obtain ⟨hcells, hrest⟩ := List.pairwise_cons.mp hseparated
        have hnext := ih (cells :: done) (fun a ha => hkept a (List.mem_cons_of_mem _ ha)) hrest <| by
          intro a ha b hb
          rcases List.mem_cons.mp ha with rfl | ha
          · exact hcells b hb
          · exact hdone a ha b (List.mem_cons_of_mem _ hb)
        rw [List.reverse_cons, List.append_assoc] at hnext
        cases hselected : selected cells with
        | false =>
            rw [updateRows_unselected hselected]
            exact hnext
        | true =>
            obtain ⟨hassigned, hnumber, hcomplete⟩ := hkept cells (List.mem_cons_self ..) hselected
            have haccept : t.accept (done ++ rest) cells = .ok () := by
              refine accept_eq_ok.mpr ⟨hcomplete, fun o ho => ?_⟩
              rcases List.mem_append.mp ho with ho | ho
              · exact (hdone o ho cells (List.mem_cons_self ..) (Or.inr hselected)).symm
              · exact hcells o ho (Or.inl hselected)
            rw [updateRows, if_pos hselected, hassigned]
            show (do
              t.checkNumber cells
              t.accept (done ++ rest) cells
              t.updateRows selected entries (cells :: done) rest) = _
            rw [hnumber, haccept]
            exact hnext
  have hall := hrun rows [] h.kept h.separated fun _ ha => nomatch ha
  exact hall

/-! ## Insertions -/

/-- A row has NULL where the row number stands.  An insertion makes a number then, and
    an update is refused. -/
def ClearsNumber (t : Table) (row : Row) : Prop :=
  ∃ j c v, t.rowNumber? = some j ∧ t.columns[j]? = some c ∧ row.get? c.name = some v
    ∧ Stored.ofValue v = .null

/-- A row number that was checked is a number. -/
theorem checkNumber_eq_ok {cells : Cells} :
    t.checkNumber cells = .ok ()
      ↔ ∀ j, t.rowNumber? = some j → ∃ n, cellAt cells j = .integer n := by
  rw [checkNumber]
  -- only a table with a row number has something to check
  cases hnumber : t.rowNumber? with
  | none => exact ⟨fun _ j hj => (nomatch hj), fun _ => rfl⟩
  | some i =>
      constructor
      · intro h j hj
        obtain rfl : i = j := Option.some.inj hj
        cases hcell : cellAt cells i with
        | integer n => exact ⟨n, rfl⟩
        | _ =>
            simp only [hcell] at h
            exact nomatch h
      · intro h
        obtain ⟨n, hn⟩ := h i rfl
        simp only [hn]

theorem column_of_rowNumber? {j : Nat} (h : t.rowNumber? = some j) : ∃ c, t.columns[j]? = some c := by
  obtain ⟨hj, -⟩ := List.findIdx?_eq_some_iff_getElem.mp h
  exact ⟨_, List.getElem?_eq_getElem hj⟩

/-- A row with a number is not left as it is if its number is cleared. -/
theorem Kept.not_clearsNumber {row : Row} {cells : Cells} (h : t.Kept row.entries cells) :
    ¬ t.ClearsNumber row := by
  rintro ⟨j, c, v, hj, hc, hv, hnull⟩
  obtain ⟨n, hn⟩ := checkNumber_eq_ok.mp h.number j hj
  have hwritten : written? row.entries c = some .null := by
    rw [written?_eq, hv, Option.map_some, hnull, Affinity.store_eq_null.mpr rfl]
  cases hcell : cells[j]? with
  | none =>
      rw [cellAt, hcell] at hn
      cases hn
  | some x =>
      have hassigned := getElem?_assigned_written hc hwritten hcell
      rw [h.assigned] at hassigned
      rw [cellAt, hassigned] at hn
      cases hn

theorem getElem?_assemble {columns : List StoredColumn} {j : Nat} {c : StoredColumn}
    (h : columns[j]? = some c) :
    (assemble columns entries)[j]? = some ((written? entries c).getD (unwritten c)) := by
  rw [assemble, List.getElem?_map, h]
  rfl

/-- **A NEW ROW IS KEPT** by an update with the entries that it was made of, unless they leave
    its number to the table. -/
theorem kept_of_newRow {lastUsed : Int} {row : Row} {cells : Cells}
    (h : t.newRow lastUsed row.entries = .ok cells) (hnumber : ¬ t.ClearsNumber row) :
    t.Kept row.entries cells := by
  obtain ⟨hnumbered, haccept⟩ := newRow_eq_ok h
  have hassemble : Table.assigned t.columns row.entries (assemble t.columns row.entries)
      = assemble t.columns row.entries := by
    refine List.ext_getElem? fun j => ?_
    rw [getElem?_assigned]
    cases hcolumn : t.columns[j]? with
    | none =>
        rw [assemble, List.getElem?_map, hcolumn]
        rfl
    | some c =>
        rw [getElem?_assemble hcolumn]
        cases hwritten : written? row.entries c <;> simp [hwritten]
  refine ⟨?_, ?_, (accept_eq_ok.mp haccept).1⟩
  · rcases numbered_eq_ok hnumbered with rfl | ⟨i, n, hi, hnull, rfl⟩
    · exact hassemble
    · -- the number stands in a column that is not written
      obtain ⟨c, hc⟩ := column_of_rowNumber? hi
      have hunwritten : written? row.entries c = none := by
        rw [cellAt, getElem?_assemble hc, Option.getD_some] at hnull
        cases hwritten : written? row.entries c with
        | none => rfl
        | some x =>
            rw [hwritten, Option.getD_some] at hnull
            rw [written?_eq, hnull] at hwritten
            obtain ⟨v, hv, hstore⟩ := Option.map_eq_some_iff.mp hwritten
            exact absurd ⟨i, c, v, hi, hc, hv, Affinity.store_eq_null.mp hstore⟩ hnumber
      refine List.ext_getElem? fun j => ?_
      by_cases hij : i = j
      · subst hij
        exact getElem?_assigned_unwritten hc hunwritten
      · have hj := congrArg (fun x => x[j]?) hassemble
        rw [getElem?_assigned] at hj
        rw [getElem?_assigned, List.getElem?_set_ne hij]
        exact hj
  · refine checkNumber_eq_ok.mpr fun j hj => ?_
    obtain ⟨c, hc⟩ := column_of_rowNumber? hj
    have hlength : j < (assemble t.columns row.entries).length :=
      (List.getElem?_eq_some_iff.mp (getElem?_assemble hc)).1
    rw [Table.numbered, hj] at hnumbered
    cases hcell : cellAt (assemble t.columns row.entries) j with
    | null =>
        simp only [hcell] at hnumbered
        obtain ⟨n, -, hset⟩ := bind_eq_ok.mp hnumbered
        obtain rfl := Except.ok.inj hset
        exact ⟨n, by rw [cellAt, List.getElem?_set_self hlength]; rfl⟩
    | integer n =>
        simp only [hcell] at hnumbered
        obtain rfl := Except.ok.inj hnumbered
        exact ⟨n, hcell⟩
    | _ =>
        simp only [hcell] at hnumbered
        cases hnumbered

/-- **AN INSERTION LEAVES SETTLED ROWS**, if no row was selected before and its number is not
    left to the table. -/
theorem settled_of_newRow {lastUsed : Int} {row : Row} {cells : Cells}
    (h : t.newRow lastUsed row.entries = .ok cells) (hnumber : ¬ t.ClearsNumber row)
    (hnone : ∀ a ∈ t.rows, selected a = false) :
    t.Settled selected row.entries (t.rows ++ [cells]) := by
  obtain ⟨-, haccept⟩ := newRow_eq_ok h
  have hapart := (accept_eq_ok.mp haccept).2
  constructor
  · intro a ha hsel
    -- only the new row is selected, and it was accepted as it is
    rcases List.mem_append.mp ha with ha | ha
    · exact absurd ((hnone a ha).symm.trans hsel) Bool.false_ne_true
    · rw [List.mem_singleton.mp ha]
      exact kept_of_newRow h hnumber
  · refine List.pairwise_append.mpr ⟨?_, List.pairwise_singleton _ _, ?_⟩
    · refine List.Pairwise.imp_of_mem (fun ha hb _ hsel => ?_) (List.pairwise_of_forall fun _ _ => trivial)
      rcases hsel with hsel | hsel
      · exact absurd ((hnone _ ha).symm.trans hsel) Bool.false_ne_true
      · exact absurd ((hnone _ hb).symm.trans hsel) Bool.false_ne_true
    · intro a ha b hb _
      rw [List.mem_singleton.mp hb]
      exact (hapart a ha).symm

end Table

/-! ## The statement -/

namespace Database

/-- **AN UPDATE SUCCEEDS** if its names are known and its rows can be changed; it counts the
    rows that it has selected. -/
theorem update_eq_ok {db db' : Database} {s : Update} {name : String} {t : Table} {count : Nat}
    (htable : s.table = some name) (hreach : db.reachable? name = some t) :
    db.update s = .ok (count, db')
      ↔ ((∀ word ∈ name :: s.assignments.map Entry.name, Word.isKeyword word = false)
          ∧ ∀ column ∈ s.conditions.map Condition.column, Word.isReadable column = true)
        ∧ (∀ column ∈ s.assignments.map Entry.name, (t.position? column).isSome = true)
        ∧ ∃ terms rows, Search.terms t s.conditions = .ok terms
          ∧ t.updateRows (Search.selects terms) s.assignments [] t.rows = .ok rows
          ∧ db' = db.withRows name rows ∧ count = t.rows.countP (Search.selects terms) := by
  have htarget : db.target name = .ok t := by rw [target, hreach]
  have hwords := Word.check_update_eq_ok (s := s)
  rw [htable, Option.getD_some] at hwords
  rw [← hwords, ← unknownColumn?_eq_none, update, htable]
  constructor
  · intro h
    obtain ⟨_, hwords, h⟩ := bind_eq_ok.mp h
    obtain ⟨u, hu, h⟩ := bind_eq_ok.mp h
    obtain rfl : t = u := Except.ok.inj (htarget.symm.trans hu)
    -- the steps of the update in their order, both ways
    cases hunknown : unknownColumn? t (s.assignments.map Entry.name) with
    | some column =>
        simp only [hunknown] at h
        cases h
    | none =>
        simp only [hunknown] at h
        obtain ⟨terms, hterms, h⟩ := bind_eq_ok.mp h
        obtain ⟨rows, hrows, h⟩ := bind_eq_ok.mp h
        cases h
        exact ⟨hwords, rfl, terms, rows, hterms, hrows, rfl, rfl⟩
  · rintro ⟨hwords, hknown, terms, rows, hterms, hrows, rfl, rfl⟩
    refine bind_eq_ok.mpr ⟨(), hwords, bind_eq_ok.mpr ⟨t, htarget, ?_⟩⟩
    simp only [hknown]
    exact bind_eq_ok.mpr ⟨terms, hterms, bind_eq_ok.mpr ⟨rows, hrows, rfl⟩⟩

end Database

end Gridbase
