import Gridbase.Proofs.Store.Rows

/-! # Comparing stored values

    Rows are found by comparing a cell with the value that a statement binds.

    * Comparing as equal is reflexive and symmetric (`Stored.same_refl`,
      `Stored.same_comm`).
    * A column FIXES a value if it stores it as it is bound.  Such a value is found in the
      rows that hold it, and in no others (`Search.selects_key`). -/

namespace Gridbase

open Gridbase.Text

/-! ## Equality -/

namespace Stored

theorem compareInt_eq {a b : Int} : compareInt a b = .eq ↔ a = b := by
  rw [compareInt]
  split
  · simp only [reduceCtorEq, false_iff]
    omega
  · split
    · simp only [reduceCtorEq, false_iff]
      omega
    · simp only [true_iff]
      omega

theorem compareList_eq {as bs : List Nat} : compareList as bs = .eq ↔ as = bs := by
  induction as generalizing bs with
  | nil => cases bs <;> simp [compareList]
  | cons a as ih =>
      cases bs with
      | nil => simp [compareList]
      | cons b bs =>
          rw [compareList]
          split
          · simp only [reduceCtorEq, false_iff, List.cons.injEq]
            omega
          · split
            · simp only [reduceCtorEq, false_iff, List.cons.injEq]
              omega
            · rw [ih, List.cons.injEq]
              exact ⟨fun h => ⟨by omega, h⟩, fun h => h.2⟩

/-- What two cells agree in when they compare as equal: the characters of texts, the
    bytes of blobs, and the values of numbers. -/
def Agree : Stored → Stored → Prop
  | .text a, .text b => a.toList.map Char.toNat = b.toList.map Char.toNat
  | .blob a, .blob b => a.map UInt8.toNat = b.map UInt8.toNat
  | a, b => a.rank = b.rank ∧ a.units = b.units

theorem compare_rank_eq {r r' : Nat} {u u' : Int} :
    (if r < r' then Ordering.lt else if r' < r then Ordering.gt else compareInt u u') = .eq
      ↔ r = r' ∧ u = u' := by
  split
  · simp only [reduceCtorEq, false_iff]
    omega
  · split
    · simp only [reduceCtorEq, false_iff]
      omega
    · rw [compareInt_eq]
      exact ⟨fun h => ⟨by omega, h⟩, fun h => h.2⟩

theorem same_iff {a b : Stored} : a.same b = true ↔ a.Agree b := by
  rw [same, beq_iff_eq]
  cases a <;> cases b <;> simp only [compare, Agree, compareList_eq, compare_rank_eq]

theorem same_refl (a : Stored) : a.same a = true := by
  rw [same_iff]
  cases a <;> first | rfl | exact ⟨rfl, rfl⟩

theorem same_comm (a b : Stored) : a.same b = b.same a := by
  rw [Bool.eq_iff_iff, same_iff, same_iff]
  cases a <;> cases b <;>
    first
    | exact eq_comm
    | exact ⟨fun h => ⟨h.1.symm, h.2.symm⟩, fun h => ⟨h.1.symm, h.2.symm⟩⟩

theorem isNull_eq_true {a : Stored} : a.isNull = true ↔ a = .null := by
  cases a <;> simp [isNull]

theorem isNull_eq_false {a : Stored} : a.isNull = false ↔ a ≠ .null := by
  cases a <;> simp [isNull]

/-- What compares as equal to NULL is NULL. -/
theorem null_same_eq_false {a : Stored} (h : a ≠ .null) : Stored.null.same a = false := by
  rw [Bool.eq_false_iff, ne_eq, same_iff]
  intro hagree
  cases a with
  | null => exact h rfl
  | _ => exact nomatch hagree.1

end Stored

/-! ## Values that a column fixes -/

/-- The column stores a value, which is not NULL, as it is bound.  Then what is looked
    for is what was stored, and a key finds its rows. -/
structure StoredColumn.Fixes (c : StoredColumn) (v : Value) : Prop where
  notNull : Stored.ofValue v ≠ .null
  stored : c.affinity.store (Stored.ofValue v) = Stored.ofValue v

namespace StoredColumn

theorem fixes_text {c : StoredColumn} (h : c.affinity = .text) (s : String) : c.Fixes (.text s) where
  notNull := Stored.noConfusion
  stored := by
    rw [h]
    rfl

theorem fixes_int {c : StoredColumn} (h : c.affinity = .integer) (n : Int64) : c.Fixes (.int n) where
  notNull := Stored.noConfusion
  stored := by
    rw [h]
    rfl

/-- The column of the row number is one of integers, in whatever case its type is written. -/
theorem affinity_of_isRowNumber {c : StoredColumn} (h : c.isRowNumber = true) :
    c.affinity = .integer := by
  rw [isRowNumber, Bool.and_eq_true] at h
  have hupper : upper c.declaredType.toList = "INTEGER".toList := by
    rw [← upper_lower, sameName_iff.mp h.2]
    decide
  rw [affinity, Affinity.ofDeclared, hupper]
  decide

end StoredColumn

/-- What is stored as it is bound is compared as it is bound: a comparison converts no
    more than the column does when it stores. -/
theorem Affinity.operand_of_store {a : Affinity} {s : Stored} (h : a.store s = s) :
    a.operand s = s := by
  have hnumber : ∀ x, toNumber (.text x) = .text x
      ∨ (∃ n, toNumber (.text x) = .integer n) ∨ ∃ r, toNumber (.text x) = .real r := by
    intro x
    rw [toNumber]
    cases hread : NumberText.read? x with
    | none => exact Or.inl rfl
    | some number => exact Or.inr (NumberText.read?_eq_some hread)
  have hwhole : ∀ r x, toWhole (.real r) ≠ .text x := by
    intro r x
    rw [toWhole, wholeNumber]
    split <;> exact Stored.noConfusion
  cases s with
  | text x =>
      -- a text that became a number would not have been stored as it is
      cases a with
      | text => rfl
      | none => rfl
      | integer =>
          rcases hnumber x with hx | ⟨n, hx⟩ | ⟨r, hx⟩
          · exact hx
          · rw [store, hx] at h
            cases h
          · rw [store, hx] at h
            exact absurd h (hwhole r x)
      | numeric =>
          rcases hnumber x with hx | ⟨n, hx⟩ | ⟨r, hx⟩
          · exact hx
          · rw [store, hx] at h
            cases h
          · rw [store, hx] at h
            exact absurd h (hwhole r x)
      | real =>
          rcases hnumber x with hx | ⟨n, hx⟩ | ⟨r, hx⟩
          · exact hx
          · rw [store, hx] at h
            cases h
          · rw [store, hx] at h
            cases hw : toWhole (.real r) with
            | text y => exact absurd hw (hwhole r y)
            | _ =>
                rw [hw] at h
                cases h
  | _ => cases a <;> first | rfl | exact h

/-! ## Rows of a key -/

/-- A row that holds the content itself is found. -/
theorem Table.holdsKey_of_cell {i : Nat} {s : Stored} (hs : s ≠ .null) {cells : Cells}
    (h : cells[i]? = some s) : holdsKey i s cells = true := by
  rw [holdsKey, cellAt, h, Stored.isNull_eq_false.mpr hs, Option.getD_some, Stored.same_refl]
  rfl

/-- Equality with content that is not NULL is known where the cell is not NULL either. -/
theorem Search.compareCell_eq {a : Affinity} {cell operand : Stored} (hcell : cell.isNull = false)
    (hoperand : operand.isNull = false) :
    compareCell a .eq cell operand = some (cell.same (a.operand operand)) := by
  simp [compareCell, hcell, hoperand, accepts, Stored.same]

/-- The one term of a search for a key. -/
theorem Search.terms_is {t : Table} {key : String} {i : Nat} {c : StoredColumn}
    (hkey : t.position? key = some i) (hcolumn : t.columns[i]? = some c) (v : Value) :
    Search.terms t [⟨.and, key, .eq, v⟩]
      = .ok [⟨.and, i, c.affinity, .eq, Stored.ofValue v⟩] := by
  have hcolumnOf : Search.column t key = .ok i := by rw [Search.column, hkey]
  rw [Search.terms, Search.term, hcolumnOf]
  show Except.ok [(⟨.and, i, (t.columns[i]?.map StoredColumn.affinity).getD .none, .eq,
    Stored.ofValue v⟩ : Search.Term)] = _
  rw [hcolumn]
  rfl

/-- **A KEY IS FOUND** in the rows that hold it, if its column fixes it.  Otherwise a
    column could store the key as something that does not compare with it. -/
theorem Search.selects_key {t : Table} {key : String} {i : Nat} {c : StoredColumn} {v : Value}
    (hkey : t.position? key = some i) (hcolumn : t.columns[i]? = some c) (hfix : c.Fixes v) :
    ∃ terms, Search.terms t [⟨.and, key, .eq, v⟩] = .ok terms
      ∧ Search.selects terms = Table.holdsKey i (Stored.ofValue v) := by
  refine ⟨_, Search.terms_is hkey hcolumn v, ?_⟩
  funext cells
  have hnull := Stored.isNull_eq_false.mpr hfix.notNull
  show (Truth.or (some false) (Search.compareCell c.affinity .eq (Table.cellAt cells i)
    (Stored.ofValue v)) == some true) = _
  rw [Table.holdsKey, hnull]
  cases hcell : (Table.cellAt cells i).isNull with
  | true =>
      rw [Stored.isNull_eq_true.mp hcell, Stored.null_same_eq_false hfix.notNull]
      rfl
  | false =>
      rw [Search.compareCell_eq hcell hnull, Affinity.operand_of_store hfix.stored]
      cases (Table.cellAt cells i).same (Stored.ofValue v) <;> rfl

end Gridbase
