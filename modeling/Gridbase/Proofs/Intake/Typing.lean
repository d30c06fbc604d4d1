import Gridbase.Proofs.Cell
import Gridbase.Proofs.Intake.Rows

/-! # The types of ingested values

    Every cell of an ingested dataset is typed by the metadata of its column.  A
    text that is blank, that is refused or whose type is unknown gives no value;
    where the column needs one, the substitute of its type is written, and that is
    the only decimal which need not have room in its column. -/

namespace Gridbase.Intake

open Gridbase.Text

/-- A value that a column with the given metadata may hold after ingestion: one that
    fits its type, NULL where the column is nullable or has no type that is known, or
    the zero that stands for a missing decimal. -/
inductive Admits (info : ColumnInfo) : Value → Prop
  | unsupported {f : Failure} (type : info.type = .error f) : Admits info .null
  | absent {t : DataType} (type : info.type = .ok t) (nullable : info.isNullable = true) :
      Admits info .null
  | present {t : DataType} {v : Value} (type : info.type = .ok t) (fits : v.Fits info t) :
      Admits info v
  | zero (type : info.type = .ok .decimal) (required : info.isNullable = false) :
      Admits info (.decimal Decimal.zero)

/-- The type of a column is known if its name is. -/
theorem type_of_parse? {info : ColumnInfo} {t : DataType}
    (h : DataType.parse? info.dataType = some t) : info.type = .ok t := by
  rw [ColumnInfo.type, DataType.parse, h]

theorem type_of_parse?_none {info : ColumnInfo} (h : DataType.parse? info.dataType = none) :
    info.type = .error (.unsupportedType info.dataType) := by
  rw [ColumnInfo.type, DataType.parse, h]

/-- The text of a cell gives NULL or a value that fits the column. -/
theorem cellValue_null_or_fits (row : Nat) (k : Kept) (text : String) :
    (cellValue row k text).1 = .null
      ∨ ∃ t, k.info.type = .ok t ∧ ((cellValue row k text).1).Fits k.info t := by
  -- only a text that was read is not NULL
  by_cases hblank : allBlank text = true
  · rw [cellValue_of_blank hblank]
    exact Or.inl rfl
  · cases htype : DataType.parse? k.info.dataType with
    | none =>
        rw [cellValue_of_unknown hblank htype]
        exact Or.inl rfl
    | some t =>
        cases hread : Cell.read t k.info text with
        | error fault =>
            rw [cellValue_of_fault hblank htype hread]
            exact Or.inl rfl
        | ok v =>
            rw [cellValue_of_read hblank htype hread]
            exact Or.inr ⟨t, type_of_parse? htype, Cell.fits_of_read hread⟩

/-- A column that needs a value may hold its substitute. -/
theorem admits_filled {info : ColumnInfo} (h : info.isNullable = false) :
    Admits info (filled info) := by
  rw [filled]
  cases htype : DataType.parse? info.dataType with
  | none => exact .unsupported (type_of_parse?_none htype)
  | some t =>
      have hknown := type_of_parse? htype
      cases t with
      | integer => exact .present hknown (.integer (by decide) (by decide))
      | decimal => exact .zero hknown h
      | dateTime => exact .present hknown (.dateTime (by decide) (by decide))
      | boolean => exact .present hknown (.boolean false)
      | string => exact .present hknown (.string fun _ _ => Nat.zero_le _)

/-- **EVERY CELL IS TYPED** by the metadata of its column.  What is read fits by the law
    of its type; what is not read is NULL or a substitute, and those fit as well. -/
theorem admits_readCell (row : Nat) (cells : List String) (k : Kept) :
    Admits k.info (readCell row cells k).1 := by
  rw [readCell_eq]
  cases hvalue : (cellValue row k (textUnder cells k)).1.isNull && !k.info.isNullable with
  | true =>
      rw [Bool.and_eq_true, Bool.not_eq_true'] at hvalue
      rw [if_pos rfl]
      dsimp only
      exact admits_filled hvalue.2
  | false =>
      rw [if_neg Bool.false_ne_true]
      rcases cellValue_null_or_fits row k (textUnder cells k) with hnull | ⟨t, htype, hfits⟩
      · -- a missing value that was not filled is one that the column may lack
        rw [hnull] at hvalue ⊢
        have hnullable : k.info.isNullable = true := by
          rw [Value.isNull, Bool.true_and] at hvalue
          simpa using hvalue
        cases htype : k.info.type with
        | error f => exact .unsupported htype
        | ok t => exact .absent htype hnullable
      · exact .present htype hfits

/-- **TYPED SOUNDNESS**: every column of an ingested dataset has metadata, the first
    of its name, and holds nothing but what the metadata admits. -/
theorem run_admits (w : Watch) (s : Sheet) (columns : List ColumnInfo) (table : String)
    (r : Report) (h : run w s columns table = .ok r) :
    ∀ c ∈ r.dataset.columns, ∃ info,
      columns.find? (fun m => sameName m.name c.name) = some info ∧ info.name = c.name
        ∧ ∀ v ∈ c.values, Admits info v := by
  obtain ⟨-, -, hdataset, -⟩ := run_eq_ok h
  intro c hc
  rw [hdataset] at hc
  obtain ⟨k, hk, rfl⟩ := List.mem_map.mp hc
  have hmatched : k ∈ matched columns (headers s) := (firstUses_sublist _).mem hk
  refine ⟨k.info, (firstNamed_of_named (named_of_mem_matched hmatched).2).find?_eq, rfl, ?_⟩
  intro v hv
  obtain ⟨row, -, rfl⟩ := List.mem_map.mp hv
  exact admits_readCell row.2 row.1 k

/-- A sheet with a row that fits its columns and one that does not: each of its texts is
    just out of the bounds. -/
def ordersSheet : Sheet := Sheet.ofRows [
  ["Id", "Price", "Due", "Paid", "Code", "Place"],
  ["7", "1,250.5", "2024-02-29", "TRUE", "abc", "x"],
  ["2147483648", "12345.678", "1752-12-31", "", "abcd", "y"]]

/-- The columns of the orders; the type of the last one is unknown. -/
def ordersColumns : List ColumnInfo := [
  { name := "Id", dataType := "Integer" },
  { name := "Price", dataType := "Decimal", precision := some 6, scale := some 2 },
  { name := "Due", dataType := "DateTime", isNullable := true },
  { name := "Paid", dataType := "Boolean" },
  { name := "Code", dataType := "String", length := some 3 },
  { name := "Place", dataType := "Geometry" }]

/-- The price of the first order. -/
def orderPrice : Decimal := { coefficient := 12505, scale := 1 }

/-- The day when the first order is due. -/
def orderDue : Date := { year := 2024, month := 2, day := 29 }

theorem midnight_lt : 0 < millisPerDay := by decide

/-- What is read of the orders.  Every cell of the second row is reported, and has a
    substitute or NULL. -/
def ordersReport : Report where
  dataset := ⟨"Orders", [
    ⟨"Id", [.int 7, .int 0]⟩,
    ⟨"Price", [.decimal orderPrice, .decimal Decimal.zero]⟩,
    ⟨"Due", [.moment ⟨orderDue, 0, midnight_lt⟩, .null]⟩,
    ⟨"Paid", [.bool true, .bool false]⟩,
    ⟨"Code", [.text "abc", .text ""]⟩,
    ⟨"Place", [.null, .null]⟩]⟩
  problems := [
    .unsupportedType "Geometry" "Place" 2, .missingValue "Place" 2,
    .rejectedCell ⟨"Id", 3, "2147483648"⟩ .notInteger, .missingValue "Id" 3,
    .rejectedCell ⟨"Price", 3, "12345.678"⟩ (.notDecimal (some 6) (some 2)),
    .missingValue "Price" 3,
    .rejectedCell ⟨"Due", 3, "1752-12-31"⟩ .dateOutOfRange,
    .missingValue "Paid" 3,
    .rejectedCell ⟨"Code", 3, "abcd"⟩ (.tooLong 3), .missingValue "Code" 3,
    .unsupportedType "Geometry" "Place" 3, .missingValue "Place" 3]

/-- The orders are typed.  This holds of the substitutes too, and of the column without
    a known type. -/
theorem ordersReport_admits :
    run .never ordersSheet ordersColumns "Orders" = .ok ordersReport
      ∧ ∀ c ∈ ordersReport.dataset.columns, ∃ info,
        ordersColumns.find? (fun m => sameName m.name c.name) = some info
          ∧ info.name = c.name ∧ ∀ v ∈ c.values, Admits info v := by
  have hrun : run .never ordersSheet ordersColumns "Orders" = .ok ordersReport := by
    rfl
  exact ⟨hrun, run_admits .never ordersSheet ordersColumns "Orders" _ hrun⟩

end Gridbase.Intake
