import Gridbase.Proofs.Binary64
import Gridbase.Proofs.Store.Comparison

/-! # Keys that are stored

    A key is found by the value that a statement binds, and then stored as its column converts
    it.  What is found with a value is equal to what the value is stored as
    (`Affinity.same_store_of_same_operand`), and equality is transitive (`Stored.same_trans`).  So
    all values that ever find one row are stored as equal keys. -/

namespace Gridbase

/-! ## Equality -/

namespace Stored

/-- What a cell is compared by: its class, its number, and its characters or bytes.
    Cells are equal exactly if their measures are. -/
def measure : Stored → Nat × Int × List Nat
  | .text s => (2, 0, s.toList.map Char.toNat)
  | .blob bytes => (3, 0, bytes.map UInt8.toNat)
  | s => (s.rank, s.units, [])

theorem same_iff_measure {a b : Stored} : a.same b = true ↔ a.measure = b.measure := by
  rw [same_iff]
  cases a <;> cases b <;> simp [Agree, measure, rank]

theorem same_trans {a b c : Stored} (h : a.same b = true) (h' : b.same c = true) :
    a.same c = true :=
  same_iff_measure.mpr ((same_iff_measure.mp h).trans (same_iff_measure.mp h'))

/-- Only NULL is equal to NULL. -/
theorem eq_null_of_same {a b : Stored} (h : a.same b = true) (hb : b = .null) : a = .null := by
  subst hb
  by_contra ha
  rw [same_comm, null_same_eq_false ha] at h
  exact nomatch h

theorem same_integer_real {n : Int64} {x : Binary64} :
    (integer n).same (real x) = true ↔ n.toInt * 2 ^ 1074 = x.units := by
  rw [same_iff]
  exact ⟨fun h => h.2, fun h => ⟨rfl, h⟩⟩

end Stored

/-! ## Conversions -/

namespace Affinity

/-- A whole number is equal to the integer that it becomes. -/
theorem same_toWhole (s : Stored) : s.same (toWhole s) = true := by
  cases s with
  | real x =>
      rw [toWhole, wholeNumber]
      split
      · next hwhole =>
          simp only [Bool.and_eq_true, decide_eq_true_eq, Binary64.isWhole, beq_iff_eq] at hwhole
          obtain ⟨⟨⟨-, hrest⟩, hlow⟩, hhigh⟩ := hwhole
          have hint : (Int64.ofInt x.truncate).toInt = x.truncate :=
            Int64.toInt_ofInt_of_le (by omega) (by omega)
          rw [Stored.same_comm, Stored.same_integer_real, hint, Binary64.truncate]
          exact Int.tdiv_mul_cancel (Int.dvd_of_emod_eq_zero hrest)
      · exact Stored.same_refl _
  | _ => exact Stored.same_refl _

/-- An integer that is the value of a real number is equal to the real number that it
    becomes. -/
theorem same_toReal {n : Int64} {x : Binary64} (h : (Stored.real x).same (.integer n) = true) :
    (Stored.integer n).same (toReal (.integer n)) = true := by
  rw [Stored.same_comm, Stored.same_integer_real] at h
  have hn : n.toInt.natAbs < 2 ^ 64 := by
    have hlow := n.le_toInt
    have hhigh := n.toInt_lt
    omega
  have hscaled : x.magnitude = n.toInt.natAbs * 2 ^ 1074 := by
    have htwo : (2 : Int).natAbs = 2 := rfl
    rw [← Binary64.natAbs_units, ← h, Int.natAbs_mul, Int.natAbs_pow, htwo]
  have hmagnitude : x.magnitude < 2 ^ (64 + 1074) :=
    calc x.magnitude = n.toInt.natAbs * 2 ^ 1074 := hscaled
      _ < 2 ^ 64 * 2 ^ 1074 := Nat.mul_lt_mul_of_pos_right hn (Nat.two_pow_pos 1074)
      _ = 2 ^ (64 + 1074) := (Nat.pow_add 2 64 1074).symm
  have hfinite := Binary64.isFinite_of_magnitude_lt (by decide) hmagnitude
  rw [toReal, Stored.same_integer_real, Binary64.ofInt, h, Binary64.units_ofUnits hfinite]

/-- What is equal to a value, and is no integer, is equal to what the value becomes as a real
    number. -/
theorem same_toReal_of_same {x y : Stored} (hx : ∀ n, x ≠ .integer n) (h : x.same y = true) :
    x.same (toReal y) = true := by
  cases y with
  | integer n =>
      cases x with
      | real r => exact Stored.same_trans h (same_toReal h)
      | integer m => exact absurd rfl (hx m)
      | _ => exact nomatch (Stored.same_iff.mp h).1
  | _ => exact h

/-- A column of real numbers stores no integer. -/
theorem toReal_ne_integer (s : Stored) (n : Int64) : toReal s ≠ .integer n := by
  cases s <;> exact Stored.noConfusion

/-- **WHAT IS FOUND WITH A VALUE** is equal to what the value is stored as.  So a row
    that was found with a key has a key that is equal to the one that is written over
    it. -/
theorem same_store_of_same_operand {a : Affinity} {x s : Stored}
    (h : (a.store x).same (a.operand s) = true) : (a.store x).same (a.store s) = true := by
  cases a with
  | text => exact h
  | none => exact h
  | integer => exact Stored.same_trans h (same_toWhole _)
  | numeric => exact Stored.same_trans h (same_toWhole _)
  | real =>
      have hwhole := Stored.same_trans h (same_toWhole _)
      exact same_toReal_of_same (toReal_ne_integer _) hwhole

end Affinity

/-! ## Rows of a key -/

/-- **A ROW IS FOUND WITH A VALUE** if its cell under the key is equal to the value as it is
    bound; NULL is not found, and finds nothing. -/
theorem Search.selects_is {t : Table} {key : String} {i : Nat} {c : StoredColumn} {v : Value}
    {terms : List Search.Term} (hkey : t.position? key = some i) (hcolumn : t.columns[i]? = some c)
    (hterms : Search.terms t [⟨.and, key, .eq, v⟩] = .ok terms) (cells : Cells) :
    Search.selects terms cells = true
      ↔ Table.cellAt cells i ≠ .null ∧ Stored.ofValue v ≠ .null
        ∧ (Table.cellAt cells i).same (c.affinity.operand (Stored.ofValue v)) = true := by
  obtain rfl := Except.ok.inj ((terms_is hkey hcolumn v).symm.trans hterms)
  show (Truth.or (some false) (Search.compareCell c.affinity .eq (Table.cellAt cells i)
    (Stored.ofValue v)) == some true) = true ↔ _
  rw [← Stored.isNull_eq_false, ← Stored.isNull_eq_false]
  -- NULL on either side is unknown, which selects nothing
  cases hcell : (Table.cellAt cells i).isNull with
  | true => simp [Search.compareCell, hcell, Truth.or]
  | false =>
      cases hoperand : (Stored.ofValue v).isNull with
      | true => simp [Search.compareCell, hoperand, Truth.or]
      | false =>
          rw [Search.compareCell_eq hcell hoperand]
          cases (Table.cellAt cells i).same (c.affinity.operand (Stored.ofValue v)) <;>
            simp [Truth.or]

end Gridbase
