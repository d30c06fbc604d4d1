import Gridbase.Proofs.Identifier
import Gridbase.Schema.Validity

/-! # Valid designs

    The rules of a valid design, stated on the design as a whole, and the proof
    that the search for a first fault finds none exactly when all of them
    hold. -/

namespace Gridbase.TableDesign

/-- The rules that a design keeps in a dialect.  Names are compared without their case,
    and a dialect may count a generated column as a key. -/
structure Valid (d : Dialect) (t : TableDesign) : Prop where
  table : d.isValidName t.tableName = true
  nonempty : t.columns ≠ []
  names : ∀ c ∈ t.columns, d.isValidName c.name = true
  distinct : t.columns.Pairwise fun a b => Text.sameName a.name b.name = false
  generated : ∀ c ∈ t.columns, c.isAutoIncrementing = true → c.dataType = .integer
  oneKey : t.columns.countP (isKeyColumn d) ≤ 1

/-- A column without a fault has a valid and new name, and is generated only as an
    integer. -/
theorem columnFault?_eq_none_iff {d : Dialect} {earlier : List String} {c : ColumnDesign} :
    columnFault? d earlier c = none ↔
      d.isValidName c.name = true ∧ earlier.any (Text.sameName c.name) = false
        ∧ (c.isAutoIncrementing = true → c.dataType = .integer) := by
  rw [columnFault?]
  by_cases hvalid : d.isValidName c.name = true
  · rw [Identifier.allBlank_of_isValid hvalid, hvalid]
    by_cases hnew : earlier.any (Text.sameName c.name) = true
    · simp [hnew]
    · by_cases hgen : c.isAutoIncrementing = true <;> simp [hnew, hgen]
  · rw [Bool.not_eq_true] at hvalid
    by_cases hblank : Text.allBlank c.name = true <;> simp [hblank, hvalid]

/-- **NO COLUMN HAS A FAULT** exactly when each keeps its rules and no name is used
    twice, among the columns or before them. -/
theorem columnsFault?_eq_none_iff {d : Dialect} (columns : List ColumnDesign) :
    ∀ earlier : List String, columnsFault? d earlier columns = none ↔
      (∀ c ∈ columns, d.isValidName c.name = true)
        ∧ (∀ c ∈ columns, earlier.any (Text.sameName c.name) = false)
        ∧ (columns.Pairwise fun a b => Text.sameName a.name b.name = false)
        ∧ (∀ c ∈ columns, c.isAutoIncrementing = true → c.dataType = .integer) := by
  induction columns with
  | nil => intro earlier; simp [columnsFault?]
  | cons c rest ih =>
      intro earlier
      rw [columnsFault?]
      cases hfault : columnFault? d earlier c with
      | some fault =>
          constructor
          · intro h
            exact nomatch h
          · rintro ⟨hnames, hnew, -, hgen⟩
            have hnone : columnFault? d earlier c = none :=
              columnFault?_eq_none_iff.mpr
                ⟨hnames c (List.mem_cons_self ..), hnew c (List.mem_cons_self ..),
                  hgen c (List.mem_cons_self ..)⟩
            rw [hfault] at hnone
            exact nomatch hnone
      | none =>
          obtain ⟨hname, hearlier, hgen⟩ := columnFault?_eq_none_iff.mp hfault
          show columnsFault? d (c.name :: earlier) rest = none ↔ _
          rw [ih (c.name :: earlier)]
          -- the name of `c` moves from the columns to the earlier names
          simp only [List.forall_mem_cons, List.pairwise_cons, List.any_cons,
            Bool.or_eq_false_iff]
          constructor
          · rintro ⟨hnames, hnew, hpair, hgens⟩
            refine ⟨⟨hname, hnames⟩, ⟨hearlier, fun a ha => (hnew a ha).2⟩, ⟨?_, hpair⟩,
              hgen, hgens⟩
            intro a ha
            rw [Text.sameName_comm]
            exact (hnew a ha).1
          · rintro ⟨⟨-, hnames⟩, ⟨-, hnew⟩, ⟨hfirst, hpair⟩, -, hgens⟩
            refine ⟨hnames, fun a ha => ⟨?_, hnew a ha⟩, hpair, hgens⟩
            rw [Text.sameName_comm]
            exact hfirst a ha

/-- **A DESIGN WITHOUT A FAULT IS VALID**, and the other way round.  The search stops at
    the first fault, so finding none means that it has gone through all rules. -/
theorem fault?_eq_none_iff {d : Dialect} {t : TableDesign} :
    fault? d t = none ↔ Valid d t := by
  rw [fault?]
  -- the rules on the table first, which leave the columns and the key
  by_cases hvalid : d.isValidName t.tableName = true
  · by_cases hnone : t.columns = []
    · constructor
      · intro h
        simp [Identifier.allBlank_of_isValid hvalid, hvalid, hnone] at h
      · intro h
        exact absurd hnone h.nonempty
    · rw [Identifier.allBlank_of_isValid hvalid, hvalid, List.isEmpty_eq_false_iff.mpr hnone]
      cases hfault : columnsFault? d [] t.columns with
      | some fault =>
          constructor
          · intro h
            exact nomatch h
          · intro h
            have := (columnsFault?_eq_none_iff t.columns []).mpr
              ⟨h.names, fun _ _ => rfl, h.distinct, h.generated⟩
            rw [hfault] at this
            exact nomatch this
      | none =>
          obtain ⟨hnames, -, hdistinct, hgen⟩ :=
            (columnsFault?_eq_none_iff t.columns []).mp hfault
          show (if 1 < t.columns.countP (isKeyColumn d) then some DesignFault.severalKeys
            else none) = none ↔ _
          by_cases hkeys : 1 < t.columns.countP (isKeyColumn d)
          · rw [if_pos hkeys]
            constructor
            · intro h
              exact nomatch h
            · intro h
              exact absurd h.oneKey (Nat.not_le.mpr hkeys)
          · rw [if_neg hkeys]
            constructor
            · intro _
              exact ⟨hvalid, hnone, hnames, hdistinct, hgen, Nat.not_lt.mp hkeys⟩
            · intro _
              rfl
  · constructor
    · intro h
      rw [Bool.not_eq_true] at hvalid
      by_cases hblank : Text.allBlank t.tableName = true <;> simp [hblank, hvalid] at h
    · intro h
      exact absurd h.table hvalid

/-- Validation accepts exactly the valid designs. -/
theorem validate_eq_ok_iff {d : Dialect} {t : TableDesign} :
    t.validate d = .ok () ↔ Valid d t := by
  rw [← fault?_eq_none_iff, validate]
  cases fault? d t <;> simp

/-- A valid design has one key at most. -/
theorem Valid.key_unique {d : Dialect} {t : TableDesign} (h : Valid d t) {a b : ColumnDesign}
    (ha : a ∈ t.columns) (hb : b ∈ t.columns) (hka : isKeyColumn d a = true)
    (hkb : isKeyColumn d b = true) : a = b := by
  have hone : (t.columns.filter (isKeyColumn d)).length ≤ 1 := by
    rw [← List.countP_eq_length_filter]
    exact h.oneKey
  have hma : a ∈ t.columns.filter (isKeyColumn d) := List.mem_filter.mpr ⟨ha, hka⟩
  have hmb : b ∈ t.columns.filter (isKeyColumn d) := List.mem_filter.mpr ⟨hb, hkb⟩
  cases hkeys : t.columns.filter (isKeyColumn d) with
  | nil =>
      rw [hkeys] at hma
      exact nomatch hma
  | cons k rest =>
      rw [hkeys, List.length_cons] at hone
      have hrest : rest = [] := List.length_eq_zero_iff.mp (by omega)
      rw [hkeys, hrest] at hma hmb
      exact (List.mem_singleton.mp hma).trans (List.mem_singleton.mp hmb).symm

end Gridbase.TableDesign
