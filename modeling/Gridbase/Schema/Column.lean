import Gridbase.Schema.Type

/-! # Columns and tables

    A design describes a table that is to be made; the information about a
    column describes one that exists. -/

namespace Gridbase

/-- A column of a table design. -/
structure ColumnDesign where
  name : String
  dataType : DataType
  length : Option UInt32 := none
  precision : Option UInt8 := none
  scale : Option UInt8 := none
  isNullable : Bool := true
  isPrimaryKey : Bool := false
  isAutoIncrementing : Bool := false
deriving DecidableEq

/-- A table that is to be made. -/
structure TableDesign where
  tableName : String
  columns : List ColumnDesign := []
deriving DecidableEq

/-- A column of an existing table.  Its type is a text, since a table that was made
    elsewhere may have a type of any name. -/
structure ColumnInfo where
  name : String
  dataType : String
  length : Option UInt32 := none
  precision : Option UInt8 := none
  scale : Option UInt8 := none
  isNullable : Bool := false
  isAutoIncrementing : Bool := false
  isPrimaryKey : Bool := false
deriving DecidableEq

namespace ColumnInfo

/-- The information that a design gives about its column; a key is not
    nullable. -/
def ofDesign (c : ColumnDesign) : ColumnInfo where
  name := c.name
  dataType := c.dataType.name
  length := c.length
  precision := c.precision
  scale := c.scale
  isNullable := c.isNullable && !c.isPrimaryKey
  isAutoIncrementing := c.isAutoIncrementing
  isPrimaryKey := c.isPrimaryKey

/-- The backend-independent type of the column. -/
def type (c : ColumnInfo) : Except Failure DataType := DataType.parse c.dataType

end ColumnInfo

end Gridbase
