import MarketData.Proofs.Borsh.Writing
import MarketData.Proofs.Protobuf.Tables

/-!
# Borsh bytes follow the field tables

Borsh carries no tags, so the order of the fields is the whole contract, and the field tables of
`Schema.live` fix it. This module states the contract as a writer of its own, driven by the
tables alone (`tableBytes`), and shows that every entity the borsh writer takes is written as
the tables prescribe (`encode_lays_out_field_tables`).

The table writer sees a value only as the record of values named as the rows are
(`EntityKind.named`). It walks a table's rows in order, and a row gives:

* for text, its length as four little-endian bytes, then its bytes;
* for a signed or unsigned integer, eight little-endian bytes of its bits; for a double, eight
  little-endian bytes of its IEEE bits; for an enumeration, one byte, the ordinal;
* for an amount, the layout of the `UInt128` table: the low word, then the high word;
* for a structure, the layout of the table its type names;
* for a list, the count of its elements as four little-endian bytes, then each element's layout;
* for the void arm of a union, one tag byte, 0 when the union's payload arm is not named and 1
  when it is, followed by the payload arm's value; the payload arm's own row gives nothing, so a
  union is taken once, at the position of its void arm.
-/

namespace MarketData.Borsh

open Schema (Catalog Table Kind Datum Record)

/-! ## The writer the tables describe -/

/-- The bytes a scalar kind gives a value; a value of another kind has none. -/
@[simp] def scalarBytes : Kind → Datum → Option Bytes
  | .text, .text b => some (Bytes.littleEndian 4 b.length ++ b)
  | .int64, .signed i => some (Bytes.littleEndian 8 i.toUInt64.toNat)
  | .uint64, .unsigned w => some (Bytes.littleEndian 8 w.toNat)
  | .float64, .float x => some (Bytes.littleEndian 8 x.bits.toNat)
  | .enum, .ordinal v => some [v.toUInt8]
  | _, _ => none

/-- The bytes a row's value gives; `message` lays out a nested record by the table it names. -/
@[simp] def valueOfRow (message : String → Record → Bytes) (row : Schema.Field) (d : Datum) : Bytes :=
  let nested (name : String) : Datum → Bytes
    | .record r => message name r
    | _ => []
  match Kind.ofName? row.kind, d with
  | some .uint128, d => nested "UInt128" d
  | some .struct, d => nested row.type d
  | some .list, .list items => Bytes.littleEndian 4 items.length ++ items.flatMap (nested row.type)
  | some k, d => (scalarBytes k d).getD []
  | none, _ => []

/-- The bytes one row of table `t` gives a record. -/
@[simp] def rowBytes (message : String → Record → Bytes) (t : Table) (record : Record)
    (row : Schema.Field) : Bytes :=
  match Kind.ofName? row.kind with
  | some .void =>
    -- a union is written at its void arm: the tag, then the payload arm's value when named
    match t.union? row.union with
    | some (_, payload) =>
      match record.lookup payload.name with
      | some d => 1 :: valueOfRow message payload d
      | none => [0]
    | none => []
  | _ =>
    if row.union = "" then
      match record.lookup row.name with
      | some d => valueOfRow message row d
      | none => []
    else []

/-- The bytes the table named `name` in a catalog gives a record, row by row; a nested record is
laid out one level deeper, and nothing is written past the given depth. -/
def tableBytes (c : Catalog) : Nat → String → Record → Bytes
  | 0, _, _ => []
  | depth + 1, name, record =>
    match c.table? name with
    | some t => t.fields.flatMap (rowBytes (tableBytes c depth) t record)
    | none => []

/-- The bytes the tables of a catalog prescribe for a record of the table named `name`. No table
nests itself, so nesting never goes deeper than there are tables. -/
def prescribedBytes (c : Catalog) (name : String) (record : Record) : Bytes :=
  tableBytes c c.tables.length name record

/-! ## What the writer writes -/

/-- The bytes of a value the writer takes, as it writes them. -/
def valueBytes : (s : Shape) → s.Value → Bytes
  | .text, v => text v
  | .int, v => word v.toUInt64
  | .word, v => word v
  | .float, v => Bytes.littleEndian 8 v.bits.toNat
  | .amount, v => word v.low ++ word v.high
  | .ordinal _, v => [v.val.toUInt8]
  | .pair, v => text v.base ++ text v.quote
  | .depth, v => Bytes.littleEndian 8 v.percentage.bits.toNat ++ Bytes.littleEndian 8 v.bid.bits.toNat ++
      Bytes.littleEndian 8 v.ask.bits.toNat
  | .book, v => word v.updateId ++ (length v.bids.toList.length ++ v.bids.toList.flatMap levelBytes) ++
      (length v.asks.toList.length ++ v.asks.toList.flatMap levelBytes)
  | .header, v => word v.timestamp.toUInt64 ++ text v.source ++ text v.publisher
  | .levels, v => length v.toList.length ++ v.toList.flatMap levelBytes
  | .optional _, none => [0]
  | .optional s, some v => 1 :: valueBytes s v

theorem encodeValue_eq_ok (s : Shape) (v : s.Value) {w : Bytes} (wrote : encodeValue s v = .ok w) :
    w = valueBytes s v := by
  induction s generalizing w with
  | text | int | word | amount | pair | header =>
    cases wrote
    rfl
  | float => exact (float_eq_ok.1 wrote).2
  | levels => exact (levels_eq_ok.1 wrote).2
  | ordinal e =>
    unfold encodeValue at wrote
    split at wrote
    · cases wrote
      rfl
    · cases wrote
  | depth =>
    simp only [encodeValue, bind_eq_ok, pure_eq_ok, float_eq_ok] at wrote
    obtain ⟨_, ⟨_, rfl⟩, _, ⟨_, rfl⟩, _, ⟨_, rfl⟩, rfl⟩ := wrote
    rfl
  | book =>
    simp only [encodeValue, bind_eq_ok, pure_eq_ok, levels_eq_ok] at wrote
    obtain ⟨_, ⟨_, rfl⟩, _, ⟨_, rfl⟩, rfl⟩ := wrote
    rfl
  | optional s inductionHypothesis =>
    cases v with
    | none =>
      cases wrote
      rfl
    | some v =>
      simp only [encodeValue, bind_eq_ok, pure_eq_ok] at wrote
      obtain ⟨u, wroteValue, rfl⟩ := wrote
      rw [inductionHypothesis v wroteValue]
      rfl

/-- The bytes of a value under a layout, slot by slot. -/
def layoutBytes {α : Type} (layout : List (Slot α)) (a : α) : Bytes :=
  layout.flatMap fun slot => valueBytes slot.shape (slot.get a)

theorem encodeSlots_eq_ok_layoutBytes {α : Type} {layout : List (Slot α)} {a : α} {b : Bytes}
    (wrote : encodeSlots layout a = .ok b) : b = layoutBytes layout a := by
  obtain ⟨parts, each, rfl⟩ := encodeSlots_eq_ok.1 wrote
  clear wrote
  -- each part is its slot's bytes, so the parts are the layout's bytes in order
  have parts_eq : parts = layout.map fun slot => valueBytes slot.shape (slot.get a) := by
    induction each with
    | nil => rfl
    | cons first _ inductionHypothesis =>
      rw [List.map_cons, ← inductionHypothesis, ← encodeValue_eq_ok _ _ first]
  rw [parts_eq, layoutBytes, List.flatMap_def]

/-! ## The live tables and the layouts -/

open Protobuf (table?_live)

section Nested

variable (depth : Nat)

@[simp] theorem tableBytes_pair (p : Pair) :
    tableBytes Schema.live (depth + 1) "Pair" p.named = text p.base ++ text p.quote := by
  simp [tableBytes, table?_live, Schema.currentTables, Schema.Table.current, Schema.Field.plain,
    Schema.Field.mk', List.lookup_cons, Pair.named, text, length]

@[simp] theorem tableBytes_amount (u : UInt128) :
    tableBytes Schema.live (depth + 1) "UInt128" u.named = word u.low ++ word u.high := by
  simp [tableBytes, table?_live, Schema.currentTables, Schema.Table.current, Schema.Field.plain,
    Schema.Field.mk', List.lookup_cons, UInt128.named, word]

@[simp] theorem tableBytes_level (l : Level) :
    tableBytes Schema.live (depth + 1) "BidOrAsk" l.named = levelBytes l := by
  simp [tableBytes, table?_live, Schema.currentTables, Schema.Table.current, Schema.Field.plain,
    Schema.Field.mk', List.lookup_cons, Level.named, levelBytes]

@[simp] theorem tableBytes_depth (d : DepthLevel) :
    tableBytes Schema.live (depth + 1) "DepthLevel" d.named = Bytes.littleEndian 8 d.percentage.bits.toNat ++
      Bytes.littleEndian 8 d.bid.bits.toNat ++ Bytes.littleEndian 8 d.ask.bits.toNat := by
  simp [tableBytes, table?_live, Schema.currentTables, Schema.Table.current, Schema.Field.plain,
    Schema.Field.mk', List.lookup_cons, DepthLevel.named]

@[simp] theorem tableBytes_header (h : Header) :
    tableBytes Schema.live (depth + 1) "BaseEntry" h.named =
      word h.timestamp.toUInt64 ++ text h.source ++ text h.publisher := by
  simp [tableBytes, table?_live, Schema.currentTables, Schema.legacyTables, Schema.Table.current,
    Schema.Table.legacy, Schema.Field.plain, Schema.Field.mk', List.lookup_cons, Header.named, word, text,
    length]

/-- A book's levels are laid out by the level table, so its own table is unfolded one level only. -/
@[simp] theorem tableBytes_book (b : Orderbook) :
    tableBytes Schema.live (depth + 2) "OrderbookData" b.named = valueBytes .book b := by
  rw [tableBytes]
  simp [table?_live, Schema.currentTables, Schema.Table.current, Schema.Field.plain, Schema.Field.typed,
    Schema.Field.mk', List.lookup_cons, Orderbook.named, Levels.datum, valueBytes, word, length,
    List.flatMap_map]

end Nested

/-- The live table of every kind lays out its layout's bytes. The union arms of the optional
fields are split first; every table is then evaluated row by row. -/
theorem tableBytes_layout (depth : Nat) (k : EntityKind) (v : k.Carrier) :
    tableBytes Schema.live (depth + 3) k.name (k.named v) = layoutBytes k.layout v := by
  rw [tableBytes]
  cases k
  case' price => rcases v with ⟨_, _ | _, _, _, _, _, _ | _⟩
  case' depth => rcases v with ⟨_, _, _, _, _ | _, _⟩
  case' market => rcases v with ⟨_, _, _, _, _ | _⟩
  case' legacyDepth => rcases v with ⟨_, _, _, _, _ | _⟩
  all_goals
    dsimp only [EntityKind.Carrier, EntityKind.layout, EntityKind.named, EntityKind.name]
    simp [table?_live, Schema.currentTables, Schema.legacyTables, Schema.bookFields, Schema.Table.current,
      Schema.Table.legacy, Schema.Field.plain, Schema.Field.typed, Schema.Field.mk', Schema.Table.union?,
      Schema.unionArms, Schema.Field.isVoid, List.lookup_cons, layoutBytes, valueBytes, PriceEntry.layout,
      OrderbookEntry.layout, DepthEntry.layout, FundingRateEntry.layout, TradeEntry.layout,
      VolumeEntry.layout, OpenInterestEntry.layout, PositionEntry.layout, GlobalExposureEntry.layout,
      MarketEntry.layout, BookEntry.layout, LegacyDepth.layout, PriceEntry.named, OrderbookEntry.named,
      DepthEntry.named, FundingRateEntry.named, TradeEntry.named, VolumeEntry.named, OpenInterestEntry.named,
      PositionEntry.named, GlobalExposureEntry.named, MarketEntry.named, BookEntry.named, LegacyDepth.named,
      Levels.datum, List.flatMap_map, word, text, length]

theorem prescribedBytes_live (k : EntityKind) (v : k.Carrier) :
    prescribedBytes Schema.live k.name (k.named v) = layoutBytes k.layout v := by
  have tables : Schema.live.tables.length = 16 + 3 := by decide
  rw [prescribedBytes, tables]
  exact tableBytes_layout 16 k v

/-- Every entity the borsh writer takes is written as its live table prescribes: the tables
number their rows in ascending order, and the bytes are each row's bytes in table order, a union
at its void arm. -/
theorem encode_lays_out_field_tables (e : Entity) (b : Bytes) (written : encode e = .ok b) :
    (∀ t ∈ Schema.live.tables, (t.fields.map (·.id.toNat)).Pairwise (· < ·)) ∧
      b = prescribedBytes Schema.live e.kind.name (e.kind.named e.value) := by
  refine ⟨Protobuf.live_ascending, ?_⟩
  rw [prescribedBytes_live]
  exact encodeSlots_eq_ok_layoutBytes written

/-- An exposure is its source, timestamp, asset and exposure in table order, with no tags. -/
theorem encode_lays_out_field_tables_exposure :
    encode ⟨.globalExposure, { timestamp := 3, asset := [0x41], exposure := ⟨5⟩ }⟩ =
        .ok [0, 0, 0, 0, 3, 0, 0, 0, 0, 0, 0, 0, 1, 0, 0, 0, 0x41, 5, 0, 0, 0, 0, 0, 0, 0] ∧
      [0, 0, 0, 0, 3, 0, 0, 0, 0, 0, 0, 0, 1, 0, 0, 0, 0x41, 5, 0, 0, 0, 0, 0, 0, 0] =
        prescribedBytes Schema.live "GlobalExposureEntry"
          (GlobalExposureEntry.named { timestamp := 3, asset := [0x41], exposure := ⟨5⟩ }) :=
  have written : encode ⟨.globalExposure, { timestamp := 3, asset := [0x41], exposure := ⟨5⟩ }⟩ =
      .ok [0, 0, 0, 0, 3, 0, 0, 0, 0, 0, 0, 0, 1, 0, 0, 0, 0x41, 5, 0, 0, 0, 0, 0, 0, 0] := by
    decide
  ⟨written, (encode_lays_out_field_tables _ _ written).2⟩

end MarketData.Borsh
