import Gridbase.Proofs.Schema.RoundTrip

/-! # Designs and the columns that are made of them

    A design gives the information about its columns before the table exists
    (`ColumnInfo.ofDesign`), knowing nothing of a dialect.  The statement that makes the
    table in SQLite is read back as the same information (`readColumns_ofDesign`), but for
    the generated columns:

    * SQLite generates the values of its key only, so a generated column is the key of the
      table, whether or not it was designed as the key;
    * nothing is said here of NULL in a generated column that was designed as
      nullable and not as the key. -/

namespace Gridbase

open Gridbase.Schema

/-- A column that was read back agrees with the information that its design gives.  The
    two differ where a generated column is not designed as the key: there the statement
    makes it the key, and so not nullable. -/
structure AgreesWithDesign (c : ColumnDesign) (m : ColumnInfo) : Prop where
  name : m.name = (ColumnInfo.ofDesign c).name
  type : m.type = .ok c.dataType ∧ (ColumnInfo.ofDesign c).type = .ok c.dataType
  generated : m.isAutoIncrementing = (ColumnInfo.ofDesign c).isAutoIncrementing
  key : m.isPrimaryKey = ((ColumnInfo.ofDesign c).isPrimaryKey || c.isAutoIncrementing)
  nullable : c.isNullable = false ∨ c.isPrimaryKey = true ∨ c.isAutoIncrementing = false →
    m.isNullable = (ColumnInfo.ofDesign c).isNullable

/-- The name of a type is read as the type. -/
theorem DataType.parse_name (t : DataType) : DataType.parse t.name = .ok t := by
  cases t <;> decide +kernel

/-- What comes back from SQLite for a column agrees with its design. -/
theorem ColumnDesign.readBack_agrees (c : ColumnDesign) :
    AgreesWithDesign c (c.readBack .sqlite) where
  name := rfl
  type := ⟨(c.readBack_readsBack .sqlite).type, DataType.parse_name c.dataType⟩
  generated := (c.readBack_readsBack .sqlite).generated rfl
  key := by
    show (c.isPrimaryKey || (true && c.isAutoIncrementing)) = _
    rw [Bool.true_and]
    rfl
  nullable := by
    intro hflags
    show c.admitsNull = (c.isNullable && !c.isPrimaryKey)
    rw [admitsNull]
    -- nullability agrees where the design itself says no, or nothing is generated
    rcases hflags with hnull | hkey | hplain
    · rw [hnull]
      rfl
    · rw [hkey, Bool.not_true, Bool.and_false, Bool.false_and]
    · rw [hplain, Bool.not_false, Bool.and_true]

namespace TableDesign

/-- A design that is compiled is valid, and its statement is its text. -/
theorem compile_eq_ok_iff {d : Dialect} {t : TableDesign} {sql : String} :
    t.compile d = .ok sql ↔ Valid d t ∧ t.createText d = sql := by
  rw [← validate_eq_ok_iff, compile]
  cases t.validate d with
  | error e =>
      constructor
      · intro h
        cases h
      · rintro ⟨h, -⟩
        cases h
  | ok u =>
      constructor
      · intro h
        exact ⟨rfl, Except.ok.inj h⟩
      · rintro ⟨-, rfl⟩
        rfl

/-- **THE COLUMNS AGREE WITH THEIR DESIGN**: of every accepted design, the statement for SQLite
    is read as columns that agree, one by one, with the information that the design gives. -/
theorem readColumns_ofDesign (t : TableDesign) (sql : String) (h : t.compile .sqlite = .ok sql) :
    List.Forall₂ AgreesWithDesign t.columns (readColumns sql) := by
  obtain ⟨hvalid, rfl⟩ := compile_eq_ok_iff.mp h
  have hread : readColumns (t.createText .sqlite)
      = t.columns.map (ColumnDesign.readBack .sqlite) :=
    readColumns_statement hvalid (by simp)
  rw [hread, List.forall₂_map_right_iff]
  exact List.forall₂_same.mpr fun c _ => c.readBack_agrees

/-- A design with a generated column that is not designed as the key. -/
def visitsDesign : TableDesign where
  tableName := "Visits"
  columns := [
    { name := "Id", dataType := .integer, isNullable := false, isAutoIncrementing := true },
    { name := "Visitor", dataType := .string }]

/-- The columns of the visits agree with their design.  The number of a visit is
    generated, so it is the key although the design does not say so. -/
theorem readColumns_ofDesign_visits :
    visitsDesign.compile .sqlite = .ok (visitsDesign.createText .sqlite) ∧
      List.Forall₂ AgreesWithDesign visitsDesign.columns
        (readColumns (visitsDesign.createText .sqlite)) := by
  have hcompile : visitsDesign.compile .sqlite = .ok (visitsDesign.createText .sqlite) := by
    decide +kernel
  exact ⟨hcompile, readColumns_ofDesign visitsDesign _ hcompile⟩

/-- **A GENERATED COLUMN BECOMES THE KEY**, so what is read back need not be what the design
    says. -/
theorem readColumns_ne_ofDesign :
    ¬ ∀ (t : TableDesign) (sql : String), t.compile .sqlite = .ok sql →
      List.Forall₂ (fun c m => m.name = (ColumnInfo.ofDesign c).name
          ∧ m.type = (ColumnInfo.ofDesign c).type
          ∧ m.isNullable = (ColumnInfo.ofDesign c).isNullable
          ∧ m.isPrimaryKey = (ColumnInfo.ofDesign c).isPrimaryKey
          ∧ m.isAutoIncrementing = (ColumnInfo.ofDesign c).isAutoIncrementing)
        t.columns (readColumns sql) := by
  intro h
  have hagree := h visitsDesign (visitsDesign.createText .sqlite) (by decide +kernel)
  have hread : readColumns (visitsDesign.createText .sqlite)
      = visitsDesign.columns.map (ColumnDesign.readBack .sqlite) := by decide +kernel
  rw [hread] at hagree
  -- the first column is read as the key, and is not designed as the key
  obtain ⟨-, -, -, hkey, -⟩ := (List.forall₂_cons.mp hagree).1
  exact absurd hkey (by decide)

end TableDesign

end Gridbase
