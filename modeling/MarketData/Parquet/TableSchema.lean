import MarketData.Parquet.Table
import MarketData.Schema.Table

/-!
The schema of an exported table, as query engines read it.

It lists the columns of the table's layout in file order. Each entry gives the column's
number and name, whether every row holds a value (a repeated column holds a list instead), the
engine's name for its type (`list<...>` around it when repeated), the number of the entity field
it is cut from, and that field's name. A column whose field the table lacks makes the schema
fail, and so does a table without a layout.
-/

namespace MarketData.Parquet

/-- One column of a table schema. -/
structure SchemaColumn where
  /-- The column's number. -/
  id : Nat
  /-- The column's name. -/
  name : String
  /-- Whether every row holds one value. -/
  required : Bool
  /-- The engine's name for the column's type. -/
  type : String
  /-- The name of the entity field behind the column. -/
  doc : String
  /-- The number of that field. -/
  field : Nat
  deriving Repr

/-- The engine's name for a physical type. -/
def Physical.engineName : Physical → String
  | .byteArray => "string"
  | .int32 => "int"
  | .int64 => "long"
  | .double => "double"

/-- The engine's name for a column's type. -/
def Column.engineType (c : Column) : String :=
  if c.repeated then "list<" ++ c.physical.engineName ++ ">" else c.physical.engineName

/-- The schema of a table: one entry per column of its layout. -/
def tableSchema (t : Schema.Table) : Except Failure (List SchemaColumn) := do
  let cols ← columnsOf (Bytes.ofString t.name)
  cols.mapM fun c =>
    match t.field? c.field.toUInt32 with
    | some f => pure ⟨c.id, c.name, !c.repeated, c.engineType, f.name, c.field⟩
    | none => throw (.plain ("metadata: " ++ t.name ++ " column " ++ c.name ++ " has no field " ++
        toString c.field))

end MarketData.Parquet
