import Gridbase.Json.Record
import Gridbase.Schema.Column
import Gridbase.Schema.Revision

/-! # Schemas as JSON

    Table designs, column information and revisions, written and read. -/

namespace Gridbase

/-! ## Columns -/

/-- A column type by its canonical name. -/
def DataType.toJson (t : DataType) : Json := .string t.name

/-- Reads a column type by its canonical name.  The other names of a type, which cells
    and databases may use, are not read here. -/
def DataType.ofJson? (j : Json) : Option DataType := j.constant?.bind DataType.ofName?

namespace ColumnDesign

/-- The field names of a column design. -/
def fieldNames : List String :=
  ["name", "dataType", "length", "precision", "scale", "isNullable", "isPrimaryKey",
    "isAutoIncrementing"]

/-- Writes a column design. -/
def toJson (c : ColumnDesign) : Json :=
  .object
    ([("name", .string c.name), ("dataType", c.dataType.toJson)]
      ++ Json.optionalMember "length" (fun n => Json.ofNat n.toNat) c.length
      ++ Json.optionalMember "precision" (fun n => Json.ofNat n.toNat) c.precision
      ++ Json.optionalMember "scale" (fun n => Json.ofNat n.toNat) c.scale
      ++ [("isNullable", .bool c.isNullable), ("isPrimaryKey", .bool c.isPrimaryKey),
        ("isAutoIncrementing", .bool c.isAutoIncrementing)])

/-- Reads a column design; it is nullable unless it says otherwise. -/
def ofJson? (j : Json) : Option ColumnDesign :=
  match j.fields? fieldNames with
  | some [name, dataType, length, precision, scale, nullable, key, generated] => do
      return {
        name := ← Json.required Json.string? name
        dataType := ← Json.required DataType.ofJson? dataType
        length := ← Json.optional Json.uint32? length
        precision := ← Json.optional Json.uint8? precision
        scale := ← Json.optional Json.uint8? scale
        isNullable := ← Json.withDefault true Json.bool? nullable
        isPrimaryKey := ← Json.withDefault false Json.bool? key
        isAutoIncrementing := ← Json.withDefault false Json.bool? generated }
  | _ => none

end ColumnDesign

namespace TableDesign

/-- Writes a table design. -/
def toJson (t : TableDesign) : Json :=
  .object [("tableName", .string t.tableName),
    ("columns", .array (t.columns.map ColumnDesign.toJson))]

/-- Reads a table design. -/
def ofJson? (j : Json) : Option TableDesign :=
  match j.fields? ["tableName", "columns"] with
  | some [tableName, columns] => do
      return {
        tableName := ← Json.required Json.string? tableName
        columns := ← Json.withDefault [] (Json.array? ColumnDesign.ofJson?) columns }
  | _ => none

end TableDesign

namespace ColumnInfo

/-- The field names of column information. -/
def fieldNames : List String :=
  ["name", "dataType", "length", "precision", "scale", "isNullable", "isAutoIncrementing",
    "isPrimaryKey"]

/-- Writes column information. -/
def toJson (c : ColumnInfo) : Json :=
  .object
    ([("name", .string c.name), ("dataType", .string c.dataType)]
      ++ Json.optionalMember "length" (fun n => Json.ofNat n.toNat) c.length
      ++ Json.optionalMember "precision" (fun n => Json.ofNat n.toNat) c.precision
      ++ Json.optionalMember "scale" (fun n => Json.ofNat n.toNat) c.scale
      ++ [("isNullable", .bool c.isNullable), ("isAutoIncrementing", .bool c.isAutoIncrementing),
        ("isPrimaryKey", .bool c.isPrimaryKey)])

/-- Reads column information; no flag is set unless it says so. -/
def ofJson? (j : Json) : Option ColumnInfo :=
  match j.fields? fieldNames with
  | some [name, dataType, length, precision, scale, nullable, generated, key] => do
      return {
        name := ← Json.required Json.string? name
        dataType := ← Json.required Json.string? dataType
        length := ← Json.optional Json.uint32? length
        precision := ← Json.optional Json.uint8? precision
        scale := ← Json.optional Json.uint8? scale
        isNullable := ← Json.withDefault false Json.bool? nullable
        isAutoIncrementing := ← Json.withDefault false Json.bool? generated
        isPrimaryKey := ← Json.withDefault false Json.bool? key }
  | _ => none

end ColumnInfo

/-! ## Revisions -/

namespace Revision

/-- Writes a change, named by its operation. -/
def toJson : Revision → Json
  | .add column => .object [("operation", .string "add"), ("column", column.toJson)]
  | .alter column => .object [("operation", .string "alter"), ("column", column.toJson)]
  | .drop name => .object [("operation", .string "drop"), ("name", .string name)]
  | .rename old new =>
      .object [("operation", .string "rename"), ("from", .string old), ("to", .string new)]

/-- Reads the column of a change. -/
def columnField? (j : Json) : Option ColumnDesign :=
  match j.fields? ["column"] with
  | some [column] => Json.required ColumnDesign.ofJson? column
  | _ => none

/-- Reads the name of a change. -/
def nameField? (j : Json) : Option String :=
  match j.fields? ["name"] with
  | some [name] => Json.required Json.string? name
  | _ => none

/-- Reads the two names of a renaming. -/
def renameFields? (j : Json) : Option (String × String) :=
  match j.fields? ["from", "to"] with
  | some [old, new] => do
      return (← Json.required Json.string? old, ← Json.required Json.string? new)
  | _ => none

/-- Reads a change. -/
def ofJson? (j : Json) : Option Revision := do
  let (operation, fields) ← j.variant? "operation"
  if operation = "add" then return .add (← columnField? fields)
  else if operation = "alter" then return .alter (← columnField? fields)
  else if operation = "drop" then return .drop (← nameField? fields)
  else if operation = "rename" then
    let (old, new) ← renameFields? fields
    return .rename old new
  else none

end Revision

namespace TableRevision

/-- Writes the changes of a table. -/
def toJson (r : TableRevision) : Json :=
  .object [("tableName", .string r.tableName), ("changes", .array (r.changes.map Revision.toJson))]

/-- Reads the changes of a table. -/
def ofJson? (j : Json) : Option TableRevision :=
  match j.fields? ["tableName", "changes"] with
  | some [tableName, changes] => do
      return {
        tableName := ← Json.required Json.string? tableName
        changes := ← Json.withDefault [] (Json.array? Revision.ofJson?) changes }
  | _ => none

end TableRevision

end Gridbase
