import Gridbase.Value

/-! # Values of native types

    The types whose elements are values, and optional elements, where absence
    is NULL. -/

namespace Gridbase

/-- A type whose elements can be stored in a cell.  Smaller numbers become the one
    integer type of the cells, and the conversion is exact for every instance. -/
class ToValue (α : Type) where
  toValue : α → Value

namespace ToValue

instance : ToValue Value := ⟨id⟩

instance : ToValue Bool := ⟨.bool⟩

instance : ToValue Int64 := ⟨.int⟩

instance : ToValue Int32 := ⟨fun n => .int n.toInt64⟩

instance : ToValue UInt32 := ⟨fun n => .int (Int64.ofNat n.toNat)⟩

instance : ToValue Binary64 := ⟨.float⟩

instance : ToValue Decimal := ⟨.decimal⟩

instance : ToValue Moment := ⟨.moment⟩

instance : ToValue String := ⟨.text⟩

instance : ToValue (List UInt8) := ⟨.blob⟩

/-- Absence is NULL. -/
instance {α : Type} [ToValue α] : ToValue (Option α) where
  toValue
    | some a => toValue a
    | none => .null

end ToValue

end Gridbase
