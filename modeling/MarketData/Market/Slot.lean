import MarketData.Market.Parts
import MarketData.Enumeration
import MarketData.Pair
import MarketData.UInt128

/-!
Entity layouts.

Every entity is a record of fields, each with a stable field identifier, the key it has in the
JSON form, and the shape of its value. The layout of an entity lists its fields in identifier
order, each with a way to read it from the entity and to replace it. Every wire format is
written once over layouts: fields go to the wire in layout order, and a reader starts from the
empty entity and replaces fields as it meets them.

An optional field takes two identifiers: the void arm has the slot's identifier and the payload
arm the next one.
-/

namespace MarketData

/-- The shape of a field's value. -/
inductive Shape where
  /-- A byte string. -/
  | text
  /-- A signed 64-bit integer. -/
  | int
  /-- An unsigned 64-bit integer. -/
  | word
  /-- A binary64 float. -/
  | float
  /-- An unsigned 128-bit amount. -/
  | amount
  /-- A member of an enumeration. -/
  | ordinal (e : Enumeration)
  /-- An asset pair. -/
  | pair
  /-- A depth reading. -/
  | depth
  /-- An order book update. -/
  | book
  /-- A legacy header. -/
  | header
  /-- One side of an order book. -/
  | levels
  /-- An optional value of a shape. -/
  | optional (s : Shape)
  deriving DecidableEq, Repr

namespace Shape

/-- The type of the values of a shape. -/
def Value : Shape → Type
  | .text => Bytes
  | .int => Int64
  | .word => UInt64
  | .float => F64
  | .amount => UInt128
  | .ordinal e => Ordinal e
  | .pair => Pair
  | .depth => DepthLevel
  | .book => Orderbook
  | .header => Header
  | .levels => Levels
  | .optional s => Option s.Value

/-- The zero value of a shape. -/
def zero : (s : Shape) → s.Value
  | .text => ([] : Bytes)
  | .int => (0 : Int64)
  | .word => (0 : UInt64)
  | .float => F64.zero
  | .amount => UInt128.zero
  | .ordinal _ => ⟨0⟩
  | .pair => ({} : Pair)
  | .depth => ({} : DepthLevel)
  | .book => ({} : Orderbook)
  | .header => ({} : Header)
  | .levels => (none : Levels)
  | .optional _ => none

end Shape

/-- One field of an entity of type `α`. -/
structure Slot (α : Type) where
  /-- The field identifier; for an optional field, that of its void arm. -/
  id : Nat
  /-- The key of the field in the JSON form. -/
  key : String
  /-- The shape of the value. -/
  shape : Shape
  /-- Reads the field. -/
  get : α → shape.Value
  /-- Replaces the field. -/
  set : shape.Value → α → α

end MarketData
