import Gridbase.Date.Reading
import Gridbase.Json.Record
import Gridbase.Sheet

/-! # Sheets as JSON

    Sheets with their decorations, written and read.  Decorations that are
    absent are not written. -/

namespace Gridbase

/-! ## Styles -/

namespace Style

/-- Writes a style. -/
def toJson (s : Style) : Json :=
  .object ([("bold", .bool s.bold)] ++ Json.optionalMember "fill" Json.string s.fill
    ++ [("locked", .bool s.locked)])

/-- Reads a style. -/
def ofJson? (j : Json) : Option Style :=
  match j.fields? ["bold", "fill", "locked"] with
  | some [bold, fill, locked] => do
      return {
        bold := ← Json.required Json.bool? bold
        fill := ← Json.optional Json.string? fill
        locked := ← Json.required Json.bool? locked }
  | _ => none

end Style

namespace StyledCell

/-- Writes the style of a cell. -/
def toJson (c : StyledCell) : Json :=
  .object [("row", Json.ofNat c.row.toNat), ("col", Json.ofNat c.col.toNat),
    ("style", c.style.toJson)]

/-- Reads the style of a cell. -/
def ofJson? (j : Json) : Option StyledCell :=
  match j.fields? ["row", "col", "style"] with
  | some [row, col, style] => do
      return {
        row := ← Json.required Json.uint32? row
        col := ← Json.required Json.uint32? col
        style := ← Json.required Style.ofJson? style }
  | _ => none

end StyledCell

namespace StyledColumn

/-- Writes the style of a column. -/
def toJson (c : StyledColumn) : Json :=
  .object [("col", Json.ofNat c.col.toNat), ("style", c.style.toJson)]

/-- Reads the style of a column. -/
def ofJson? (j : Json) : Option StyledColumn :=
  match j.fields? ["col", "style"] with
  | some [col, style] => do
      return {
        col := ← Json.required Json.uint32? col
        style := ← Json.required Style.ofJson? style }
  | _ => none

end StyledColumn

/-! ## Validations -/

/-- Writes a date. -/
def Date.toJson (d : Date) : Json := .string (String.ofList d.text)

/-- Reads a date.  The layout with gaps is the most lenient one: blanks may stand
    around both dashes. -/
def Date.ofJson? (j : Json) : Option Date := j.string?.bind fun s => Date.read? Date.spaced s.toList

namespace InputRule

/-- Writes a rule, named by its kind. -/
def toJson : InputRule → Json
  | .wholeNumber min => .object [("kind", .string "wholeNumber"), ("min", .integer min.toInt)]
  | .decimal min => .object [("kind", .string "decimal"), ("min", .real min)]
  | .date min => .object [("kind", .string "date"), ("min", min.toJson)]
  | .list items => .object [("kind", .string "list"), ("items", .array (items.map Json.string))]
  | .custom formula => .object [("kind", .string "custom"), ("formula", .string formula)]

/-- Reads the only field of a rule. -/
def field? {α : Type} (name : String) (value? : Json → Option α) (j : Json) : Option α :=
  match j.fields? [name] with
  | some [field] => Json.required value? field
  | _ => none

/-- Reads a rule. -/
def ofJson? (j : Json) : Option InputRule := do
  let (kind, fields) ← j.variant? "kind"
  if kind = "wholeNumber" then return .wholeNumber (← field? "min" Json.int64? fields)
  else if kind = "decimal" then return .decimal (← field? "min" Json.number64? fields)
  else if kind = "date" then return .date (← field? "min" Date.ofJson? fields)
  else if kind = "list" then return .list (← field? "items" (Json.array? Json.string?) fields)
  else if kind = "custom" then return .custom (← field? "formula" Json.string? fields)
  else none

end InputRule

namespace Alert

/-- Writes an alert. -/
def toJson (a : Alert) : Json :=
  .object [("title", .string a.title), ("message", .string a.message)]

/-- Reads an alert. -/
def ofJson? (j : Json) : Option Alert :=
  match j.fields? ["title", "message"] with
  | some [title, message] => do
      return {
        title := ← Json.required Json.string? title
        message := ← Json.required Json.string? message }
  | _ => none

end Alert

namespace Validation

/-- Writes a validation. -/
def toJson (v : Validation) : Json :=
  .object ([("range", .string v.range), ("rule", v.rule.toJson),
      ("ignoreBlank", .bool v.ignoreBlank)]
    ++ Json.optionalMember "errorAlert" Alert.toJson v.alert)

/-- Reads a validation. -/
def ofJson? (j : Json) : Option Validation :=
  match j.fields? ["range", "rule", "ignoreBlank", "errorAlert"] with
  | some [range, rule, ignoreBlank, alert] => do
      return {
        range := ← Json.required Json.string? range
        rule := ← Json.required InputRule.ofJson? rule
        ignoreBlank := ← Json.required Json.bool? ignoreBlank
        alert := ← Json.optional Alert.ofJson? alert }
  | _ => none

end Validation

namespace Protection

/-- The field names of a protection. -/
def fieldNames : List String :=
  ["allowDeleteColumns", "allowInsertColumns", "allowDeleteRows", "allowInsertRows",
    "allowSort", "allowFormatColumns", "allowSelectLockedCells", "allowSelectUnlockedCells"]

/-- Writes a protection. -/
def toJson (p : Protection) : Json :=
  .object [("allowDeleteColumns", .bool p.deleteColumns),
    ("allowInsertColumns", .bool p.insertColumns), ("allowDeleteRows", .bool p.deleteRows),
    ("allowInsertRows", .bool p.insertRows), ("allowSort", .bool p.sort),
    ("allowFormatColumns", .bool p.formatColumns),
    ("allowSelectLockedCells", .bool p.selectLockedCells),
    ("allowSelectUnlockedCells", .bool p.selectUnlockedCells)]

/-- Reads a protection. -/
def ofJson? (j : Json) : Option Protection :=
  match j.fields? fieldNames with
  | some [deleteColumns, insertColumns, deleteRows, insertRows, sort, formatColumns,
      selectLocked, selectUnlocked] => do
      return {
        deleteColumns := ← Json.required Json.bool? deleteColumns
        insertColumns := ← Json.required Json.bool? insertColumns
        deleteRows := ← Json.required Json.bool? deleteRows
        insertRows := ← Json.required Json.bool? insertRows
        sort := ← Json.required Json.bool? sort
        formatColumns := ← Json.required Json.bool? formatColumns
        selectLockedCells := ← Json.required Json.bool? selectLocked
        selectUnlockedCells := ← Json.required Json.bool? selectUnlocked }
  | _ => none

end Protection

/-! ## Sheets -/

namespace Sheet

/-- A row of texts. -/
def rowToJson (cells : List String) : Json := .array (cells.map Json.string)

/-- Reads rows of texts. -/
def rowsOfJson? (j : Json) : Option (List (List String)) :=
  j.array? (Json.array? Json.string?)

/-- Writes a sheet. -/
def toJson (s : Sheet) : Json :=
  .object ([("sheetName", .string s.name), ("rows", .array (s.rows.map rowToJson))]
    ++ Json.listMember "cellStyles" StyledCell.toJson s.cellStyles
    ++ Json.listMember "columnStyles" StyledColumn.toJson s.columnStyles
    ++ Json.listMember "validations" Validation.toJson s.validations
    ++ Json.optionalMember "protection" Protection.toJson s.protection)

/-- Reads a sheet.  Every field has a default, so that an empty object is an empty
    sheet. -/
def ofJson? (j : Json) : Option Sheet :=
  match j.fields? ["sheetName", "rows", "cellStyles", "columnStyles", "validations",
      "protection"] with
  | some [name, rows, cellStyles, columnStyles, validations, protection] => do
      return {
        name := ← Json.withDefault "" Json.string? name
        rows := ← Json.withDefault [] rowsOfJson? rows
        cellStyles := ← Json.withDefault [] (Json.array? StyledCell.ofJson?) cellStyles
        columnStyles := ← Json.withDefault [] (Json.array? StyledColumn.ofJson?) columnStyles
        validations := ← Json.withDefault [] (Json.array? Validation.ofJson?) validations
        protection := ← Json.optional Protection.ofJson? protection }
  | _ => none

end Sheet

end Gridbase
