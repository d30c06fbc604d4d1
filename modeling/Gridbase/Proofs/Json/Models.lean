import Gridbase.Json.Schema
import Gridbase.Json.Sheet
import Gridbase.Proofs.Date
import Gridbase.Proofs.Json.Parsed
import Gridbase.Proofs.Json.Records

/-! # Models, read back

    What a model is written as is read as the model again (`ofJson?_toJson`, of every model):
    field by field, where a field that was left out is what its default gives back, and
    for the rules and the revisions variant by variant.

    What is written keeps the bounds of the reader (`within_toJson`).  Only the rules of a
    sheet hold doubles (`Sheet.leastDecimals`), so of the other models nothing is asked. -/

namespace Gridbase

open Gridbase.Json

/-! ## Columns and tables -/

@[simp] theorem DataType.ofJson?_toJson (t : DataType) : ofJson? t.toJson = some t := by
  cases t <;> decide +kernel

namespace ColumnDesign

theorem fields?_toJson (c : ColumnDesign) :
    c.toJson.fields? fieldNames = some [some (.string c.name), some c.dataType.toJson,
      c.length.map fun n => ofNat n.toNat, c.precision.map fun n => ofNat n.toNat,
      c.scale.map fun n => ofNat n.toNat, some (.bool c.isNullable), some (.bool c.isPrimaryKey),
      some (.bool c.isAutoIncrementing)] := by
  refine fields?_object ?_
  iterate 8 refine .cons (by simp) ?_
  exact .nil

@[simp] theorem ofJson?_toJson (c : ColumnDesign) : ofJson? c.toJson = some c := by
  rw [ofJson?, fields?_toJson]
  simp

end ColumnDesign

namespace TableDesign

theorem ofJson?_toJson (t : TableDesign) : ofJson? t.toJson = some t := by
  have hfields : t.toJson.fields? ["tableName", "columns"] = some [some (.string t.tableName),
      some (.array (t.columns.map ColumnDesign.toJson))] := by
    refine fields?_object ?_
    iterate 2 refine .cons (by simp) ?_
    exact .nil
  have hcolumns : array? ColumnDesign.ofJson? (.array (t.columns.map ColumnDesign.toJson))
      = some t.columns := array?_map fun c _ => c.ofJson?_toJson
  rw [ofJson?, hfields]
  simp [hcolumns]

end TableDesign

namespace ColumnInfo

theorem ofJson?_toJson (c : ColumnInfo) : ofJson? c.toJson = some c := by
  have hfields : c.toJson.fields? fieldNames = some [some (.string c.name),
      some (.string c.dataType), c.length.map fun n => ofNat n.toNat,
      c.precision.map fun n => ofNat n.toNat, c.scale.map fun n => ofNat n.toNat,
      some (.bool c.isNullable), some (.bool c.isAutoIncrementing),
      some (.bool c.isPrimaryKey)] := by
    refine fields?_object ?_
    iterate 8 refine .cons (by simp) ?_
    exact .nil
  rw [ofJson?, hfields]
  simp

end ColumnInfo

/-! ## Revisions -/

@[simp] theorem Revision.ofJson?_toJson (r : Revision) : ofJson? r.toJson = some r := by
  cases r with
  | add column =>
      rw [toJson, ofJson?, variant?_object (by simp)]
      simp [columnField?]
  | alter column =>
      rw [toJson, ofJson?, variant?_object (by simp)]
      simp [columnField?]
  | drop name =>
      rw [toJson, ofJson?, variant?_object (by simp)]
      simp [nameField?]
  | rename old new =>
      have hfields : fields? ["from", "to"] (.object [("from", .string old), ("to", .string new)])
          = some [some (.string old), some (.string new)] :=
        fields?_object (.cons (by simp) (.cons (by simp) .nil))
      rw [toJson, ofJson?, variant?_object (by simp)]
      simp [renameFields?, hfields]

theorem TableRevision.ofJson?_toJson (r : TableRevision) : ofJson? r.toJson = some r := by
  have hfields : r.toJson.fields? ["tableName", "changes"] = some [some (.string r.tableName),
      some (.array (r.changes.map Revision.toJson))] := by
    refine fields?_object ?_
    iterate 2 refine .cons (by simp) ?_
    exact .nil
  have hchanges : array? Revision.ofJson? (.array (r.changes.map Revision.toJson))
      = some r.changes := array?_map fun c _ => c.ofJson?_toJson
  rw [ofJson?, hfields]
  simp [hchanges]

/-! ## Sheets -/

@[simp] theorem Style.ofJson?_toJson (s : Style) : ofJson? s.toJson = some s := by
  have hfields : s.toJson.fields? ["bold", "fill", "locked"] = some [some (.bool s.bold),
      s.fill.map Json.string, some (.bool s.locked)] := by
    refine fields?_object ?_
    iterate 3 refine .cons (by simp) ?_
    exact .nil
  rw [ofJson?, hfields]
  simp

theorem StyledCell.ofJson?_toJson (c : StyledCell) : ofJson? c.toJson = some c := by
  have hfields : c.toJson.fields? ["row", "col", "style"] = some [some (ofNat c.row.toNat),
      some (ofNat c.col.toNat), some c.style.toJson] := by
    refine fields?_object ?_
    iterate 3 refine .cons (by simp) ?_
    exact .nil
  rw [ofJson?, hfields]
  simp

theorem StyledColumn.ofJson?_toJson (c : StyledColumn) : ofJson? c.toJson = some c := by
  have hfields : c.toJson.fields? ["col", "style"] = some [some (ofNat c.col.toNat),
      some c.style.toJson] := by
    refine fields?_object ?_
    iterate 2 refine .cons (by simp) ?_
    exact .nil
  rw [ofJson?, hfields]
  simp

@[simp] theorem Date.ofJson?_toJson (d : Date) : ofJson? d.toJson = some d := by
  rw [toJson, ofJson?, string?_string, Option.bind_some, String.toList_ofList, read?_text]

@[simp] theorem Json.array?_string (items : List String) :
    array? string? (.array (items.map Json.string)) = some items :=
  array?_map fun s _ => string?_string s

@[simp] theorem InputRule.ofJson?_toJson (r : InputRule) : ofJson? r.toJson = some r := by
  cases r with
  | wholeNumber min =>
      rw [toJson, ofJson?, variant?_object (by simp)]
      simp [field?]
  | decimal min =>
      rw [toJson, ofJson?, variant?_object (by simp)]
      simp [field?, number64?]
  | date min =>
      rw [toJson, ofJson?, variant?_object (by simp)]
      simp [field?]
  | list items =>
      rw [toJson, ofJson?, variant?_object (by simp)]
      simp [field?]
  | custom formula =>
      rw [toJson, ofJson?, variant?_object (by simp)]
      simp [field?]

@[simp] theorem Alert.ofJson?_toJson (a : Alert) : ofJson? a.toJson = some a := by
  have hfields : a.toJson.fields? ["title", "message"] = some [some (.string a.title),
      some (.string a.message)] := by
    refine fields?_object ?_
    iterate 2 refine .cons (by simp) ?_
    exact .nil
  rw [ofJson?, hfields]
  simp

theorem Validation.ofJson?_toJson (v : Validation) : ofJson? v.toJson = some v := by
  have hfields : v.toJson.fields? ["range", "rule", "ignoreBlank", "errorAlert"]
      = some [some (.string v.range), some v.rule.toJson, some (.bool v.ignoreBlank),
        v.alert.map Alert.toJson] := by
    refine fields?_object ?_
    iterate 4 refine .cons (by simp) ?_
    exact .nil
  have halert : optional Alert.ofJson? (v.alert.map Alert.toJson) = some v.alert := by
    refine optional_map ?_ Alert.ofJson?_toJson v.alert
    intro a h
    exact nomatch h
  rw [ofJson?, hfields]
  simp [halert]

theorem Protection.ofJson?_toJson (p : Protection) : ofJson? p.toJson = some p := by
  have hfields : p.toJson.fields? fieldNames = some [some (.bool p.deleteColumns),
      some (.bool p.insertColumns), some (.bool p.deleteRows), some (.bool p.insertRows),
      some (.bool p.sort), some (.bool p.formatColumns), some (.bool p.selectLockedCells),
      some (.bool p.selectUnlockedCells)] := by
    refine fields?_object ?_
    iterate 8 refine .cons (by simp) ?_
    exact .nil
  rw [ofJson?, hfields]
  simp

/-- A sheet comes back from its record, whatever its fields hold. -/
theorem Sheet.ofJson?_toJson (s : Sheet) : ofJson? s.toJson = some s := by
  -- the six members are told apart by their names
  have hfields : s.toJson.fields? ["sheetName", "rows", "cellStyles", "columnStyles", "validations",
      "protection"] = some [some (.string s.name), some (.array (s.rows.map rowToJson)),
        listField StyledCell.toJson s.cellStyles, listField StyledColumn.toJson s.columnStyles,
        listField Validation.toJson s.validations, s.protection.map Protection.toJson] := by
    refine fields?_object ?_
    iterate 6 refine .cons (by simp) ?_
    exact .nil
  have hrows : rowsOfJson? (.array (s.rows.map rowToJson)) = some s.rows :=
    array?_map fun cells _ => Json.array?_string cells
  have hcells : withDefault [] (array? StyledCell.ofJson?) (listField StyledCell.toJson s.cellStyles)
      = some s.cellStyles := withDefault_listField fun c _ => c.ofJson?_toJson
  have hcolumns : withDefault [] (array? StyledColumn.ofJson?)
      (listField StyledColumn.toJson s.columnStyles) = some s.columnStyles :=
    withDefault_listField fun c _ => c.ofJson?_toJson
  have hvalidations : withDefault [] (array? Validation.ofJson?)
      (listField Validation.toJson s.validations) = some s.validations :=
    withDefault_listField fun v _ => v.ofJson?_toJson
  have hprotection : optional Protection.ofJson? (s.protection.map Protection.toJson)
      = some s.protection := by
    refine optional_map ?_ Protection.ofJson?_toJson s.protection
    intro p h
    exact nomatch h
  rw [ofJson?, hfields]
  simp [hrows, hcells, hcolumns, hvalidations, hprotection]

/-! ## Bounds -/

/-- The double that a rule compares with. -/
def InputRule.leastDecimal? : InputRule → Option Binary64
  | .decimal min => some min
  | _ => none

/-- The doubles that the rules of a sheet compare with.  There are no others in a sheet.
    -/
def Sheet.leastDecimals (s : Sheet) : List Binary64 :=
  s.validations.filterMap fun v => v.rule.leastDecimal?

section
variable {fine : Binary64 → Prop} {depth : Nat}

theorem ColumnDesign.within_toJson (c : ColumnDesign) : Within fine (depth + 1) c.toJson := by
  refine .object ?_
  simp only [List.forall_mem_append, List.forall_mem_cons]
  exact ⟨⟨⟨⟨⟨.string _, .string _, List.forall_mem_nil _⟩,
    within_optionalMember _ fun n _ => within_uint32 n⟩,
    within_optionalMember _ fun n _ => within_uint8 n⟩,
    within_optionalMember _ fun n _ => within_uint8 n⟩,
    .bool _, .bool _, .bool _, List.forall_mem_nil _⟩

theorem TableDesign.within_toJson (t : TableDesign) : Within fine (depth + 3) t.toJson := by
  refine .object ?_
  simp only [List.forall_mem_cons]
  exact ⟨.string _, within_map fun c _ => c.within_toJson, List.forall_mem_nil _⟩

theorem ColumnInfo.within_toJson (c : ColumnInfo) : Within fine (depth + 1) c.toJson := by
  refine .object ?_
  simp only [List.forall_mem_append, List.forall_mem_cons]
  exact ⟨⟨⟨⟨⟨.string _, .string _, List.forall_mem_nil _⟩,
    within_optionalMember _ fun n _ => within_uint32 n⟩,
    within_optionalMember _ fun n _ => within_uint8 n⟩,
    within_optionalMember _ fun n _ => within_uint8 n⟩,
    .bool _, .bool _, .bool _, List.forall_mem_nil _⟩

theorem Revision.within_toJson (r : Revision) : Within fine (depth + 2) r.toJson := by
  cases r with
  | add column =>
      refine .object ?_
      simp only [List.forall_mem_cons]
      exact ⟨.string _, column.within_toJson, List.forall_mem_nil _⟩
  | alter column =>
      refine .object ?_
      simp only [List.forall_mem_cons]
      exact ⟨.string _, column.within_toJson, List.forall_mem_nil _⟩
  | drop name =>
      refine .object ?_
      simp only [List.forall_mem_cons]
      exact ⟨.string _, .string _, List.forall_mem_nil _⟩
  | rename old new =>
      refine .object ?_
      simp only [List.forall_mem_cons]
      exact ⟨.string _, .string _, .string _, List.forall_mem_nil _⟩

theorem TableRevision.within_toJson (r : TableRevision) : Within fine (depth + 4) r.toJson := by
  refine .object ?_
  simp only [List.forall_mem_cons]
  exact ⟨.string _, within_map fun c _ => c.within_toJson, List.forall_mem_nil _⟩

theorem Style.within_toJson (s : Style) : Within fine (depth + 1) s.toJson := by
  refine .object ?_
  simp only [List.forall_mem_append, List.forall_mem_singleton]
  exact ⟨⟨.bool _, within_optionalMember _ fun _ _ => .string _⟩, .bool _⟩

theorem StyledCell.within_toJson (c : StyledCell) : Within fine (depth + 2) c.toJson := by
  refine .object ?_
  simp only [List.forall_mem_cons]
  exact ⟨within_uint32 _, within_uint32 _, c.style.within_toJson, List.forall_mem_nil _⟩

theorem StyledColumn.within_toJson (c : StyledColumn) : Within fine (depth + 2) c.toJson := by
  refine .object ?_
  simp only [List.forall_mem_cons]
  exact ⟨within_uint32 _, c.style.within_toJson, List.forall_mem_nil _⟩

/-- The record of a rule is within the bounds of the reader, if its double is fine. -/
theorem InputRule.within_toJson (r : InputRule) (h : ∀ x ∈ r.leastDecimal?, fine x) :
    Within fine (depth + 2) r.toJson := by
  -- two levels: the rule, and inside it at most a list
  cases r with
  | wholeNumber min =>
      refine .object ?_
      simp only [List.forall_mem_cons]
      exact ⟨.string _, within_int64 min, List.forall_mem_nil _⟩
  | decimal min =>
      refine .object ?_
      simp only [List.forall_mem_cons]
      exact ⟨.string _, .real (h min rfl), List.forall_mem_nil _⟩
  | date min =>
      refine .object ?_
      simp only [List.forall_mem_cons]
      exact ⟨.string _, .string _, List.forall_mem_nil _⟩
  | list items =>
      refine .object ?_
      simp only [List.forall_mem_cons]
      exact ⟨.string _, within_map fun _ _ => .string _, List.forall_mem_nil _⟩
  | custom formula =>
      refine .object ?_
      simp only [List.forall_mem_cons]
      exact ⟨.string _, .string _, List.forall_mem_nil _⟩

theorem Alert.within_toJson (a : Alert) : Within fine (depth + 1) a.toJson := by
  refine .object ?_
  simp only [List.forall_mem_cons]
  exact ⟨.string _, .string _, List.forall_mem_nil _⟩

theorem Validation.within_toJson (v : Validation) (h : ∀ x ∈ v.rule.leastDecimal?, fine x) :
    Within fine (depth + 3) v.toJson := by
  refine .object ?_
  simp only [List.forall_mem_append, List.forall_mem_cons]
  exact ⟨⟨.string _, v.rule.within_toJson h, .bool _, List.forall_mem_nil _⟩,
    within_optionalMember _ fun a _ => a.within_toJson⟩

theorem Protection.within_toJson (p : Protection) : Within fine (depth + 1) p.toJson := by
  refine .object ?_
  simp only [List.forall_mem_cons]
  exact ⟨.bool _, .bool _, .bool _, .bool _, .bool _, .bool _, .bool _, .bool _,
    List.forall_mem_nil _⟩

theorem Sheet.within_toJson (s : Sheet) (h : ∀ x ∈ s.leastDecimals, fine x) :
    Within fine (depth + 5) s.toJson := by
  have hrule : ∀ v ∈ s.validations, ∀ x ∈ v.rule.leastDecimal?, fine x :=
    fun v hv x hx => h x (List.mem_filterMap.mpr ⟨v, hv, hx⟩)
  refine .object ?_
  simp only [List.forall_mem_append, List.forall_mem_cons]
  exact ⟨⟨⟨⟨⟨.string _, within_map fun _ _ => within_map fun _ _ => .string _,
    List.forall_mem_nil _⟩,
    within_listMember _ fun c _ => c.within_toJson⟩,
    within_listMember _ fun c _ => c.within_toJson⟩,
    within_listMember _ fun v hv => v.within_toJson (hrule v hv)⟩,
    within_optionalMember _ fun p _ => p.within_toJson⟩

end

end Gridbase
