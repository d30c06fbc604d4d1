import Gridbase.Dataset
import Gridbase.Proofs.Row

/-! # Datasets — columns addressed by name

    The operations on a dataset look for the FIRST column of a name.  Where the
    names are pairwise distinct this is the only one, so a column that is known
    to stand at a place is changed there and nowhere else.

    The names of a dataset that was built from the empty one ARE distinct
    (`Built.distinct`), so each of its rows has one entry for each column, with the
    value of that column (`row_of_lt`). -/

namespace Gridbase

open Gridbase.Text

/-! ## Columns -/

namespace Dataset

/-- Columns of other names are passed over. -/
theorem modifyColumn_append {name : String} {f : List Value → List Value}
    {others : List DataColumn} (h : ∀ c ∈ others, sameName c.name name = false)
    (columns : List DataColumn) :
    modifyColumn name f (others ++ columns) = others ++ modifyColumn name f columns := by
  induction others with
  | nil => rfl
  | cons c others ih =>
      rw [List.cons_append, modifyColumn, h c (List.mem_cons_self ..),
        ih fun e he => h e (List.mem_cons_of_mem _ he)]
      rfl

/-- A column that comes first under its name is changed. -/
theorem modifyColumn_self (name : String) (values : List Value) (f : List Value → List Value)
    (columns : List DataColumn) :
    modifyColumn name f (⟨name, values⟩ :: columns) = ⟨name, f values⟩ :: columns := by
  rw [modifyColumn, sameName_refl]
  rfl

/-- A column of a new name is added at the end. -/
theorem pushColumn_of_new {d : Dataset} {name : String}
    (h : ∀ c ∈ d.columns, sameName c.name name = false) (values : List Value) :
    d.pushColumn name values = { d with columns := d.columns ++ [⟨name, values⟩] } := by
  have hnew : d.hasColumn name = false := by
    rw [hasColumn, List.any_eq_false]
    intro c hc
    rw [h c hc]
    exact Bool.false_ne_true
  rw [pushColumn, hnew]
  rfl

/-- Columns of one length are consistent. -/
theorem inconsistent_of_length {d : Dataset} {n : Nat}
    (h : ∀ c ∈ d.columns, c.values.length = n) : d.inconsistent = [] := by
  cases hcolumns : d.columns with
  | nil => rw [inconsistent, hcolumns]
  | cons first rest =>
      -- all columns are compared with the first
      have hfilter : (first :: rest).filter
          (fun c => c.values.length != first.values.length) = [] := by
        refine List.filter_eq_nil_iff.mpr fun c hc => ?_
        rw [← hcolumns] at hc
        have hfirst : first ∈ d.columns := by
          rw [hcolumns]
          exact List.mem_cons_self ..
        rw [h c hc, h first hfirst]
        simp
      rw [inconsistent, hcolumns]
      show ((first :: rest).filter _).map DataColumn.name = []
      rw [hfilter]
      rfl

/-- The number of rows is the length of the columns, if it is the same for all. -/
theorem rowCount_of_length {d : Dataset} {n : Nat} (hne : d.columns ≠ [])
    (h : ∀ c ∈ d.columns, c.values.length = n) : d.rowCount = n := by
  have hshortest : ∀ columns : List DataColumn, columns ≠ [] →
      (∀ c ∈ columns, c.values.length = n) → shortest columns = n := by
    intro columns
    induction columns with
    | nil => intro hnil; exact absurd rfl hnil
    | cons first rest ih =>
        intro _ hall
        have hfirst := hall first (List.mem_cons_self ..)
        cases rest with
        | nil => exact hfirst
        | cons second rest =>
            rw [shortest, hfirst, ih (by simp) fun c hc => hall c (List.mem_cons_of_mem _ hc),
              Nat.min_self]
            simp
  exact hshortest d.columns hne h

/-- No column is shorter than the number of rows. -/
theorem rowCount_le {d : Dataset} {c : DataColumn} (h : c ∈ d.columns) :
    d.rowCount ≤ c.values.length := by
  have hshortest : ∀ columns : List DataColumn, c ∈ columns → shortest columns ≤ c.values.length := by
    intro columns
    induction columns with
    | nil => intro hc; exact nomatch hc
    | cons first rest ih =>
        intro hc
        -- the last column stands alone in the minimum
        cases rest with
        | nil =>
            rw [List.mem_singleton.mp hc]
            exact Nat.le_refl _
        | cons second rest =>
            rw [shortest]
            · rcases List.mem_cons.mp hc with rfl | hc
              · exact Nat.min_le_left ..
              · exact Nat.le_trans (Nat.min_le_right ..) (ih hc)
            · simp
  exact hshortest d.columns h

/-! ## Built datasets -/

/-- The dataset was built from an empty one by the calls that there are for it.  Every
    dataset of the intake is, and so are those that are put together by hand. -/
inductive Built : Dataset → Prop
  | empty (table : String) : Built (.empty table)
  | pushColumn {d : Dataset} (h : Built d) (name : String) (values : List Value) :
      Built (d.pushColumn name values)
  | pushValue {d : Dataset} (h : Built d) (name : String) (value : Value) :
      Built (d.pushValue name value)
  | truncated {d : Dataset} (h : Built d) : Built d.truncated

theorem map_name_modifyColumn (name : String) (f : List Value → List Value)
    (columns : List DataColumn) :
    (modifyColumn name f columns).map DataColumn.name = columns.map DataColumn.name := by
  induction columns with
  | nil => rfl
  | cons c columns ih =>
      rw [modifyColumn]
      cases sameName c.name name with
      | true => rfl
      | false => exact congrArg (c.name :: ·) ih

/-- **THE NAMES OF A BUILT DATASET DIFFER.**  A push to a name that is there already
    replaces the values and leaves the spelling. -/
theorem Built.distinct {d : Dataset} (h : Built d) :
    d.names.Pairwise fun a b => sameName a b = false := by
  -- induction on how the dataset was built; only a new column adds a name
  induction h with
  | empty table => exact List.Pairwise.nil
  | @pushColumn d _ name values ih =>
      cases hnew : d.hasColumn name with
      | true =>
          rw [Dataset.pushColumn, hnew]
          show ((modifyColumn name _ d.columns).map DataColumn.name).Pairwise _
          rw [map_name_modifyColumn]
          exact ih
      | false =>
          have hothers : ∀ c ∈ d.columns, sameName c.name name = false := by
            simpa [hasColumn] using hnew
          rw [pushColumn_of_new hothers, names, List.map_append]
          refine List.pairwise_append.mpr ⟨ih, List.pairwise_singleton _ _, ?_⟩
          intro a ha b hb
          obtain ⟨c, hc, rfl⟩ := List.mem_map.mp ha
          rw [List.map_singleton, List.mem_singleton] at hb
          rw [hb]
          exact hothers c hc
  | @pushValue d _ name value ih =>
      show ((modifyColumn name _ d.columns).map DataColumn.name).Pairwise _
      rw [map_name_modifyColumn]
      exact ih
  | @truncated d _ ih =>
      rw [Dataset.truncated]
      split
      · exact ih
      · rw [names, List.map_map]
        exact ih

/-- Where the names differ, the values under a name are those of the column that has it. -/
theorem column?_eq_some_iff {d : Dataset}
    (h : d.names.Pairwise fun a b => sameName a b = false) {name : String}
    {values : List Value} :
    d.column? name = some values
      ↔ ∃ c ∈ d.columns, sameName c.name name = true ∧ c.values = values := by
  rw [names, List.pairwise_map] at h
  rw [column?, Option.map_eq_some_iff]
  constructor
  · rintro ⟨c, hfind, hvalues⟩
    have hname : sameName c.name name = true := by simpa using List.find?_some hfind
    exact ⟨c, List.mem_of_find?_eq_some hfind, hname, hvalues⟩
  · rintro ⟨c, hc, hname, hvalues⟩
    exact ⟨c, find?_of_distinct h hc hname, hvalues⟩

/-- The order of columns of distinct names makes no difference to what is found. -/
theorem column?_of_perm {d d' : Dataset} (hd : d.Built) (hd' : d'.Built)
    (h : d.columns.Perm d'.columns) (name : String) : d.column? name = d'.column? name := by
  refine Option.ext fun values => ?_
  rw [column?_eq_some_iff hd.distinct, column?_eq_some_iff hd'.distinct]
  simp only [h.mem_iff]

/-! ## Rows of a dataset -/

variable {d : Dataset} {i : Nat}

/-- A row below the number of rows has a value of every column. -/
theorem rowEntries_of_lt (h : i < d.rowCount) :
    rowEntries i d.columns = d.columns.map fun c => (c.name, (c.values[i]?).getD .null) := by
  have hlong : ∀ c ∈ d.columns, ∃ v, c.values[i]? = some v := by
    intro c hc
    exact ⟨_, List.getElem?_eq_getElem (Nat.lt_of_lt_of_le h (rowCount_le hc))⟩
  rw [rowEntries, ← List.filterMap_eq_map]
  refine List.filterMap_congr ?_
  intro c hc
  obtain ⟨v, hv⟩ := hlong c hc
  rw [Function.comp_apply, hv]
  rfl

theorem rows_eq (d : Dataset) :
    d.rows = (List.range d.rowCount).map fun i => Row.ofList (rowEntries i d.columns) := by
  rw [rows, ← List.filterMap_eq_map]
  refine List.filterMap_congr ?_
  intro i hi
  rw [row?, if_pos (List.mem_range.mp hi)]
  rfl

theorem length_rows (d : Dataset) : d.rows.length = d.rowCount := by
  rw [rows_eq, List.length_map, List.length_range]

/-- **A ROW OF A BUILT DATASET** has an entry for each column, in their order. -/
theorem row_of_lt (hd : d.Built) (h : i < d.rowCount) :
    ∃ row, d.rows[i]? = some row
      ∧ row.entries = d.columns.map fun c => ⟨c.name, (c.values[i]?).getD .null⟩ := by
  refine ⟨Row.ofList (rowEntries i d.columns), ?_, ?_⟩
  · rw [rows_eq, List.getElem?_map, List.getElem?_range h]
    rfl
  · have hdistinct := hd.distinct
    rw [names, List.pairwise_map] at hdistinct
    rw [rowEntries_of_lt h, Row.entries_ofList (List.pairwise_map.mpr hdistinct), List.map_map]
    rfl

theorem names_of_mem (hd : d.Built) {row : Row} (hrow : row ∈ d.rows) : row.names = d.names := by
  obtain ⟨i, hi⟩ := List.getElem?_of_mem hrow
  have hlt : i < d.rowCount := by
    rw [← length_rows]
    exact (List.getElem?_eq_some_iff.mp hi).1
  obtain ⟨row', hrow', hentries⟩ := row_of_lt hd hlt
  obtain rfl : row' = row := Option.some.inj (hrow'.symm.trans hi)
  rw [Row.names, hentries, List.map_map]
  rfl

/-- The entry under the name of a column has the value of the column. -/
theorem get?_row (hd : d.Built) {row : Row} (hrow : d.rows[i]? = some row) {c : DataColumn}
    (hc : c ∈ d.columns) : ∃ v, c.values[i]? = some v ∧ row.get? c.name = some v := by
  have hi : i < d.rowCount := by
    rw [← length_rows]
    exact (List.getElem?_eq_some_iff.mp hrow).1
  obtain ⟨row', hrow', hentries⟩ := row_of_lt hd hi
  obtain rfl : row' = row := Option.some.inj (hrow'.symm.trans hrow)
  have hvalue := List.getElem?_eq_getElem (Nat.lt_of_lt_of_le hi (rowCount_le hc))
  have hdistinct := hd.distinct
  rw [names, List.pairwise_map] at hdistinct
  refine ⟨_, hvalue, ?_⟩
  -- the column is the first of its name, since names are distinct
  have hfind := find?_of_distinct hdistinct hc (sameName_refl c.name)
  rw [Row.get?, hentries, List.find?_map]
  show (((d.columns.find? fun x => sameName x.name c.name).map _).map _) = _
  rw [hfind]
  show some ((c.values[i]?).getD .null) = _
  rw [hvalue]
  rfl

end Dataset

end Gridbase
