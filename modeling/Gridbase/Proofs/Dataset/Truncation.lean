import Gridbase.Proofs.Dataset
import Mathlib.Data.List.Forall2

/-! # Datasets as lists of rows

    Columns may be of different lengths while a dataset is built.  It has the rows that EVERY column
    has a value for, and each of its rows is whole: one entry for each column, with the value that
    stands there (`IsRows`).  A cut takes away nothing but the values that belong to no row
    (`IsCut`).

    The columns are compared with the first one, and cut to the shortest.  Both come to the same:
    if none differs from the first, all have its length, and the shortest has it too
    (`columns_truncated`). -/

namespace Gridbase.Dataset

open Gridbase.Text

variable {d : Dataset}

/-! ## Lengths -/

theorem shortest_eq (columns : List DataColumn) :
    shortest columns = (columns.map fun c => c.values.length).min?.getD 0 := by
  induction columns with
  | nil => rfl
  | cons c columns ih =>
      cases columns with
      | nil => rfl
      | cons c' columns =>
          rw [shortest, ih]
          · cases hrest : ((c' :: columns).map fun c => c.values.length).min? with
            | none => exact (List.cons_ne_nil _ _ (List.min?_eq_none_iff.mp hrest)).elim
            | some n =>
                rw [List.map_cons (l := c' :: columns), List.min?_cons, hrest]
                rfl
          · simp

/-- **NO COLUMN IS INCONSISTENT** exactly if all are of one length.  The first column is
    the measure, but which column it is does not matter here. -/
theorem inconsistent_eq_nil_iff :
    d.inconsistent = [] ↔ ∃ n, ∀ c ∈ d.columns, c.values.length = n := by
  refine ⟨fun h => ?_, fun ⟨_, hlength⟩ => inconsistent_of_length hlength⟩
  cases hcolumns : d.columns with
  | nil => exact ⟨0, fun _ hc => nomatch hc⟩
  | cons first rest =>
      rw [inconsistent, hcolumns] at h
      have hfilter := List.filter_eq_nil_iff.mp (List.map_eq_nil_iff.mp h)
      exact ⟨first.values.length, fun c hc => by simpa using hfilter c hc⟩

/-- **A CUT** leaves of every column as many values as there are rows.  Where nothing is
    cut this holds too, since every column then has that length. -/
theorem columns_truncated (d : Dataset) :
    d.truncated.columns = d.columns.map fun c => { c with values := c.values.take d.rowCount } := by
  rw [truncated]
  split
  next h =>
    obtain ⟨n, hlength⟩ := inconsistent_eq_nil_iff.mp (List.isEmpty_iff.mp h)
    have hwhole : ∀ c ∈ d.columns, { c with values := c.values.take d.rowCount } = c := by
      intro c hc
      rw [rowCount_of_length (List.ne_nil_of_mem hc) hlength, ← hlength c hc, List.take_length]
    exact ((List.map_congr_left hwhole).trans (List.map_id _)).symm
  · rfl

theorem table_truncated (d : Dataset) : d.truncated.table = d.table := by
  rw [truncated]
  split <;> rfl

theorem length_of_mem_truncated {c : DataColumn} (hc : c ∈ d.truncated.columns) :
    c.values.length = d.rowCount := by
  rw [columns_truncated] at hc
  obtain ⟨c', hc', rfl⟩ := List.mem_map.mp hc
  exact List.length_take_of_le (rowCount_le hc')

theorem rowCount_truncated (d : Dataset) : d.truncated.rowCount = d.rowCount := by
  by_cases hnil : d.columns = []
  · rw [rowCount, rowCount, columns_truncated, hnil]
    rfl
  · refine rowCount_of_length ?_ fun c hc => length_of_mem_truncated hc
    rw [columns_truncated]
    simpa using hnil

/-! ## Rows -/

/-- A row takes the values that a cut leaves. -/
theorem rowEntries_truncated {i : Nat} (hi : i < d.rowCount) :
    rowEntries i d.truncated.columns = rowEntries i d.columns := by
  rw [rowEntries, rowEntries, columns_truncated, List.filterMap_map]
  refine List.filterMap_congr fun c _ => ?_
  show ((c.values.take d.rowCount)[i]?).map _ = _
  rw [List.getElem?_take_of_lt hi]

theorem rows_truncated (d : Dataset) : d.truncated.rows = d.rows := by
  rw [rows_eq, rows_eq, rowCount_truncated]
  refine List.map_congr_left fun i hi => ?_
  rw [rowEntries_truncated (List.mem_range.mp hi)]

/-- The dataset is the list of its rows: as many as the shortest column has values, and each with
    an entry for every column, in their order, that has the value of the column there. -/
structure IsRows (d : Dataset) : Prop where
  distinct : d.names.Pairwise fun a b => sameName a b = false
  rowCount : d.rowCount = (d.columns.map fun c => c.values.length).min?.getD 0
  length : d.rows.length = d.rowCount
  rows : ∀ i < d.rowCount, ∃ row, d.rows[i]? = some row ∧ d.row? i = some row
    ∧ List.Forall₂ (fun c e => e.name = c.name ∧ c.values[i]? = some e.value)
        d.columns row.entries
  beyond : ∀ i, d.rowCount ≤ i → d.row? i = none

/-- The dataset cut to its rows: the same rows, from the beginnings of the same columns.
    Uneven columns are reported exactly if there is something to cut, and a second cut
    finds nothing. -/
structure IsCut (d cut : Dataset) : Prop where
  table : cut.table = d.table
  names : cut.names = d.names
  rows : cut.rows = d.rows
  columns : List.Forall₂
    (fun c c' => c'.name = c.name ∧ c'.values <+: c.values ∧ c'.values.length = d.rowCount)
    d.columns cut.columns
  reported : d.inconsistent = [] ↔ ∃ n, ∀ c ∈ d.columns, c.values.length = n
  again : cut.inconsistent = [] ∧ cut.truncated = cut

theorem Built.isRows (h : d.Built) : d.IsRows where
  distinct := h.distinct
  rowCount := shortest_eq d.columns
  length := length_rows d
  rows i hi := by
    obtain ⟨row, hrow, hentries⟩ := row_of_lt h hi
    refine ⟨row, hrow, ?_, ?_⟩
    · rw [rows_eq, List.getElem?_map, List.getElem?_range hi] at hrow
      rw [row?, if_pos hi]
      exact hrow
    · rw [hentries]
      refine List.forall₂_map_right_iff.mpr (List.forall₂_same.mpr fun c hc => ⟨rfl, ?_⟩)
      rw [List.getElem?_eq_getElem (Nat.lt_of_lt_of_le hi (rowCount_le hc))]
      rfl
  beyond i hi := by rw [row?, if_neg (Nat.not_lt.mpr hi)]

theorem isCut_truncated (d : Dataset) : d.IsCut d.truncated where
  table := table_truncated d
  names := by
    rw [names, columns_truncated, List.map_map]
    rfl
  rows := rows_truncated d
  columns := by
    rw [columns_truncated]
    refine List.forall₂_map_right_iff.mpr (List.forall₂_same.mpr fun c hc => ⟨rfl, ?_, ?_⟩)
    · exact List.take_prefix ..
    · exact List.length_take_of_le (rowCount_le hc)
  reported := inconsistent_eq_nil_iff
  again := by
    -- after the cut all columns have one length, so that nothing is left to cut
    have hnone : d.truncated.inconsistent = [] :=
      inconsistent_of_length fun c hc => length_of_mem_truncated hc
    refine ⟨hnone, ?_⟩
    rw [truncated, hnone]
    rfl

/-- **A DATASET IS A LIST OF ROWS**, however it was built from the empty one, and a cut leaves all
    of them. -/
theorem Built.isRows_and_isCut (d : Dataset) (h : d.Built) : d.IsRows ∧ d.IsCut d.truncated :=
  ⟨h.isRows, isCut_truncated d⟩

/-- Two columns of different lengths. -/
def ragged : Dataset :=
  ((((Dataset.empty "t").pushColumn "a" [.int 1, .int 2]).pushColumn "b" [.int 1]).pushValue
    "A" (.int 3))

/-- The first column is the longer one by two values, and the cut takes both away. -/
theorem Built.isRows_and_isCut_ragged : ragged.IsRows ∧ ragged.IsCut ragged.truncated :=
  Built.isRows_and_isCut ragged
    ((((Built.empty "t").pushColumn "a" [.int 1, .int 2]).pushColumn "b" [.int 1]).pushValue
      "A" (.int 3))

example : ragged.inconsistent = ["b"] ∧ ragged.truncated.names = ["a", "b"]
    ∧ ragged.truncated.column? "a" = some [.int 1] := by decide

end Gridbase.Dataset
