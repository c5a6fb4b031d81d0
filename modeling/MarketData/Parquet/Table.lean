import MarketData.Market.Entity
import MarketData.Union

/-!
Entities as rows of a columnar table.

Each kind of entity is stored in a table of flat columns, in the order of its layout. A text is a
byte-array column; an integer, a word and each word of an amount an INT64 column holding the
bits; an ordinal an INT32 column holding its bits; a float a DOUBLE column. A pair takes a base
and a quote column, a depth reading three DOUBLE columns, a header its three fields, a side two
repeated DOUBLE columns of prices and of quantities, and a book its update identifier and its
two sides. An optional field takes an INT32 arm column, then the columns of its value, which
hold zero when the arm is absent. Every column names the field identifier it stores.

Reading a row checks what the flat form cannot rule out: an arm must be 0 or 1 (a negative arm
is reported as such), and the two columns of a side must have the same length. A side with no
levels reads as not supplied.
-/

namespace MarketData.Parquet

/-- The physical type of a column. -/
inductive Physical where
  /-- Bytes. -/
  | byteArray
  /-- 32-bit integers. -/
  | int32
  /-- 64-bit integers. -/
  | int64
  /-- Binary64 floats. -/
  | double
  deriving DecidableEq, Repr

/-- The name of a physical type. -/
def Physical.name : Physical → String
  | .byteArray => "BYTE_ARRAY"
  | .int32 => "INT32"
  | .int64 => "INT64"
  | .double => "DOUBLE"

/-- A column of a table. -/
structure Column where
  /-- The position of the column, from 1. -/
  id : Nat
  /-- The column name. -/
  name : String
  /-- The physical type. -/
  physical : Physical
  /-- Whether the column holds a list per row. -/
  repeated : Bool
  /-- The identifier of the entity field it stores. -/
  field : Nat
  deriving DecidableEq, Repr

/-- The value of one column in one row. -/
inductive Cell where
  /-- A byte array. -/
  | bytes (b : Bytes)
  /-- A 32-bit integer, as bits. -/
  | int32 (v : UInt32)
  /-- A 64-bit integer, as bits. -/
  | int64 (v : UInt64)
  /-- A float. -/
  | double (x : F64)
  /-- The floats of a repeated column. -/
  | doubles (xs : List F64)
  deriving DecidableEq, Repr

/-- A row: one cell per column. -/
abbrev Row := List Cell

/-! ## Columns -/

/-- Columns from (name, type, repeated, field) rows, numbered from 1. -/
def numbered (rows : List (String × Physical × Bool × Nat)) : List Column :=
  (rows.zipIdx 1).map fun ((name, physical, repeated, field), id) => ⟨id, name, physical, repeated, field⟩

/-- The columns of the table of a kind. -/
def columns : EntityKind → List Column
  | .price => numbered
    [("source", .byteArray, false, 1), ("chain_arm", .int32, false, 2), ("chain", .int32, false, 3),
     ("pair_base", .byteArray, false, 4), ("pair_quote", .byteArray, false, 4),
     ("timestamp", .int64, false, 5), ("price_low", .int64, false, 6),
     ("price_high", .int64, false, 6), ("volume_low", .int64, false, 7),
     ("volume_high", .int64, false, 7), ("expiration_arm", .int32, false, 8),
     ("expiration", .int64, false, 9)]
  | .orderbook => numbered
    [("source", .byteArray, false, 1), ("instrument_type", .int32, false, 2),
     ("pair_base", .byteArray, false, 3), ("pair_quote", .byteArray, false, 3),
     ("type", .int32, false, 4), ("update_id", .int64, false, 5),
     ("bid_prices", .double, true, 5), ("bid_quantities", .double, true, 5),
     ("ask_prices", .double, true, 5), ("ask_quantities", .double, true, 5),
     ("timestamp", .int64, false, 6)]
  | .depth => numbered
    [("source", .byteArray, false, 1), ("instrument_type", .int32, false, 2),
     ("pair_base", .byteArray, false, 3), ("pair_quote", .byteArray, false, 3),
     ("percentage", .double, false, 4), ("bid", .double, false, 4), ("ask", .double, false, 4),
     ("chain_arm", .int32, false, 5), ("chain", .int32, false, 6), ("timestamp", .int64, false, 7)]
  | .fundingRate => numbered
    [("source", .byteArray, false, 1), ("pair_base", .byteArray, false, 2),
     ("pair_quote", .byteArray, false, 2), ("funding_rate", .double, false, 3),
     ("timestamp", .int64, false, 4)]
  | .trade => numbered
    [("source", .byteArray, false, 1), ("instrument_type", .int32, false, 2),
     ("pair_base", .byteArray, false, 3), ("pair_quote", .byteArray, false, 3),
     ("trade_id", .byteArray, false, 4), ("buyer_address", .byteArray, false, 5),
     ("seller_address", .byteArray, false, 6), ("side", .int32, false, 7),
     ("size", .double, false, 8), ("price", .double, false, 9), ("timestamp", .int64, false, 10)]
  | .volume => numbered
    [("source", .byteArray, false, 1), ("instrument_type", .int32, false, 2),
     ("pair_base", .byteArray, false, 3), ("pair_quote", .byteArray, false, 3),
     ("volume_daily", .double, false, 4), ("timestamp", .int64, false, 5)]
  | .openInterest => numbered
    [("source", .byteArray, false, 1), ("pair_base", .byteArray, false, 2),
     ("pair_quote", .byteArray, false, 2), ("open_interest", .double, false, 3),
     ("timestamp", .int64, false, 4)]
  | .position => numbered
    [("source", .byteArray, false, 1), ("instrument_type", .int32, false, 2),
     ("pair_base", .byteArray, false, 3), ("pair_quote", .byteArray, false, 3),
     ("timestamp", .int64, false, 4), ("received_timestamp", .int64, false, 5),
     ("side", .int32, false, 6), ("notional_in_usd", .double, false, 7),
     ("size", .double, false, 8)]
  | .globalExposure => numbered
    [("source", .byteArray, false, 1), ("timestamp", .int64, false, 2),
     ("asset", .byteArray, false, 3), ("exposure", .double, false, 4)]
  | .market => numbered
    [("timestamp", .int64, false, 1), ("source", .byteArray, false, 1),
     ("publisher", .byteArray, false, 1), ("pair_id", .byteArray, false, 2),
     ("price_low", .int64, false, 3), ("price_high", .int64, false, 3),
     ("volume_low", .int64, false, 4), ("volume_high", .int64, false, 4),
     ("expiration_arm", .int32, false, 5), ("expiration_timestamp_ms", .int64, false, 6)]
  | .snapshot => bookColumns
  | .update => bookColumns
  | .legacyDepth => numbered
    [("percentage", .double, false, 1), ("bid", .double, false, 1), ("ask", .double, false, 1),
     ("pair_base", .byteArray, false, 2), ("pair_quote", .byteArray, false, 2),
     ("source", .byteArray, false, 3), ("instrument_type", .int32, false, 4),
     ("chain_arm", .int32, false, 5), ("chain", .int32, false, 6)]
where
  /-- The columns of a legacy book. -/
  bookColumns : List Column := numbered
    [("timestamp", .int64, false, 1), ("source", .byteArray, false, 1),
     ("publisher", .byteArray, false, 1), ("instrument_type", .int32, false, 2),
     ("pair_base", .byteArray, false, 3), ("pair_quote", .byteArray, false, 3),
     ("last_update_id", .int64, false, 4), ("bid_prices", .double, true, 5),
     ("bid_quantities", .double, true, 5), ("ask_prices", .double, true, 6),
     ("ask_quantities", .double, true, 6)]

/-- The kind whose table has a layout name: the catalog names, compared exactly. -/
def layoutKind? (name : Bytes) : Option EntityKind :=
  EntityKind.all.find? fun k => Bytes.ofString k.name == name

/-- The columns of a layout name; a name with no layout fails with `unsupportedType`. -/
def columnsOf (name : Bytes) : Except Failure (List Column) :=
  match layoutKind? name with
  | some k => .ok (columns k)
  | none => .error (.coded .unsupportedType s!"parquet: no layout for {Utf8.toStringLossy name}")

/-! ## Rows -/

/-- The cells of a side: its prices and its quantities. -/
def levelCells (l : Levels) : List Cell :=
  [.doubles (l.toList.map (·.price)), .doubles (l.toList.map (·.quantity))]

/-- The cells of a value of a shape. -/
def cells : (s : Shape) → s.Value → List Cell
  | .text, v => [.bytes v]
  | .int, v => [.int64 v.toUInt64]
  | .word, v => [.int64 v]
  | .float, v => [.double v]
  | .amount, v => [.int64 v.low, .int64 v.high]
  | .ordinal _, v => [.int32 v.val]
  | .pair, v => [.bytes v.base, .bytes v.quote]
  | .depth, v => [.double v.percentage, .double v.bid, .double v.ask]
  | .book, v => .int64 v.updateId :: levelCells v.bids ++ levelCells v.asks
  | .header, v => [.int64 v.timestamp.toUInt64, .bytes v.source, .bytes v.publisher]
  | .levels, v => levelCells v
  | .optional s, none => .int32 0 :: cells s s.zero
  | .optional s, some v => .int32 1 :: cells s v

/-- The row of a value under a layout. -/
def rowOf {α : Type} (layout : List (Slot α)) (a : α) : Row :=
  layout.flatMap fun slot => cells slot.shape (slot.get a)

/-- The row of an entity. -/
def encodeRow (e : Entity) : Row := rowOf e.kind.layout e.value

/-- A reader of the cells of a row, in order. -/
abbrev CellReader := StateT Row (Except Failure)

/-- Takes the next cell. -/
def nextCell : CellReader Cell := do
  match (← get) with
  | c :: rest => set rest; pure c
  | [] => pure (.bytes [])

/-- Takes the next byte-array cell. -/
def nextBytes : CellReader Bytes := do
  match (← nextCell) with
  | .bytes b => pure b
  | _ => pure []

/-- Takes the next INT32 cell. -/
def nextInt32 : CellReader UInt32 := do
  match (← nextCell) with
  | .int32 v => pure v
  | _ => pure 0

/-- Takes the next INT64 cell. -/
def nextInt64 : CellReader UInt64 := do
  match (← nextCell) with
  | .int64 v => pure v
  | _ => pure 0

/-- Takes the next DOUBLE cell. -/
def nextDouble : CellReader F64 := do
  match (← nextCell) with
  | .double x => pure x
  | _ => pure F64.zero

/-- Takes the next repeated DOUBLE cell. -/
def nextDoubles : CellReader (List F64) := do
  match (← nextCell) with
  | .doubles xs => pure xs
  | _ => pure []

/-- Reads a side named `side`: prices and quantities of equal length. -/
def readSide (side : String) : CellReader Levels := do
  let prices ← nextDoubles
  let quantities ← nextDoubles
  if prices.length ≠ quantities.length then
    throw (.coded .malformedPayload
      s!"parquet: {side} has {prices.length} prices and {quantities.length} quantities")
  pure (Levels.ofList (prices.zipWith (fun p q => ⟨p, q⟩) quantities))

/-- The arm of an INT32 arm cell; a negative arm and one above 1 fail. -/
def armOf (raw : UInt32) : Except Failure Arm :=
  if raw.toNat ≥ Nat.pow 2 31 then
    .error (.coded .malformedUnion s!"parquet: arm {(raw.toNat : Int) - Int.pow 2 32}")
  else Arm.ofWire raw.toNat

/-- Reads a value of a shape from the cells of a field with key `key`. -/
def readCells (key : String) : (s : Shape) → CellReader s.Value
  | .text => nextBytes
  | .int => do pure (← nextInt64).toInt64
  | .word => nextInt64
  | .float => nextDouble
  | .amount => do
    let low ← nextInt64
    let high ← nextInt64
    pure ⟨low, high⟩
  | .ordinal _ => do pure ⟨← nextInt32⟩
  | .pair => do
    let base ← nextBytes
    let quote ← nextBytes
    pure ⟨base, quote⟩
  | .depth => do
    let percentage ← nextDouble
    let bid ← nextDouble
    let ask ← nextDouble
    pure ⟨percentage, bid, ask⟩
  | .book => do
    let updateId ← nextInt64
    let bids ← readSide "bids"
    let asks ← readSide "asks"
    pure ⟨updateId, bids, asks⟩
  | .header => do
    let timestamp ← nextInt64
    let source ← nextBytes
    let publisher ← nextBytes
    pure ⟨timestamp.toInt64, source, publisher⟩
  | .levels => readSide key
  | .optional s => do
    let raw ← nextInt32
    let payload ← readCells key s
    match armOf raw with
    | .error f => throw f
    | .ok .absent => pure none
    | .ok .present => pure (some payload)

/-- Reads a value under a layout from a row. -/
def ofRow {α : Type} (layout : List (Slot α)) (init : α) (row : Row) : Except Failure α :=
  (layout.foldlM (fun (a : α) (slot : Slot α) => do
    pure (slot.set (← readCells slot.key slot.shape) a)) init).run' row

/-- Reads an entity of a kind from a row. -/
def decodeRow (k : EntityKind) (row : Row) : Except Failure k.Carrier :=
  ofRow k.layout k.empty row

end MarketData.Parquet
