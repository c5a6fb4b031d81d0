import MarketData.Proofs.Protobuf.RoundTrip
import MarketData.Schema.Live

/-!
# Messages follow the field tables

The field tables of `Schema.live` are the published wire contract: a field's number in its table
is its protobuf field number, and its kind fixes its wire type. This module states the contract
as a writer of its own, driven by the tables alone, and shows that the protobuf writer agrees
with it on every entity (`encode_follows_field_tables`).

The table writer (`tableFields`) walks a table's rows in order. It sees a value only as a record
of values named as the rows are (`Schema.Record`); the views `named` give every entity and every
nested value that record from its own structure fields, so two fields of one kind exchanged by
the writer would show. A row gives:

* for the void arm of a union, an empty length-delimited field when the union's other arm is not
  named, and nothing otherwise;
* for a list, one length-delimited field per element, in order, each a message of the element's
  table;
* for a structure or an amount, one length-delimited field holding the message of its table
  (`UInt128` for an amount);
* for text, integers, words, enumerations and floats, one field of the kind's wire type, even
  when the value is zero.

Every table's numbers ascend, so the fields come in ascending number, a list's elements together.
-/

namespace MarketData.Schema

/-- A value as the field tables see it: a scalar of one of the scalar kinds, a record of named
values, or a list. -/
inductive Datum where
  /-- Text. -/
  | text (b : Bytes)
  /-- A signed 64-bit integer. -/
  | signed (i : Int64)
  /-- An unsigned 64-bit integer. -/
  | unsigned (w : UInt64)
  /-- A double. -/
  | float (x : F64)
  /-- The ordinal of an enumeration member. -/
  | ordinal (v : UInt32)
  /-- A nested structure. -/
  | record (fields : List (String × Datum))
  /-- A list. -/
  | list (items : List Datum)

/-- Values named as the rows of a table name them; a union names only the arm it takes. -/
abbrev Record := List (String × Datum)

/-- The entry of an optional value: named when present, absent otherwise. -/
@[simp] def optionalEntry (name : String) (d : Option Datum) : Record := (d.map (name, ·)).toList

/-- The wire type a kind of row is written with: a varint for integers, words and enumerations,
eight bytes for a double, and length-delimited for everything else. -/
def Kind.wireType : Kind → Nat
  | .int64 | .uint64 | .enum => 0
  | .float64 => 1
  | .text | .uint128 | .struct | .list | .void => 2

@[simp] theorem Kind.ofName?_name (k : Kind) : Kind.ofName? k.name = some k := by
  cases k <;> rfl

end MarketData.Schema

namespace MarketData

open Schema (Datum Record optionalEntry)

/-! ## Values by the names of their rows -/

/-- A pair by name. -/
def Pair.named (p : Pair) : Record := [("base", .text p.base), ("quote", .text p.quote)]

/-- An amount by name: its low and high words. -/
def UInt128.named (u : UInt128) : Record := [("low", .unsigned u.low), ("high", .unsigned u.high)]

/-- A level by name. -/
def Level.named (l : Level) : Record := [("price", .float l.price), ("quantity", .float l.quantity)]

/-- A depth reading by name. -/
def DepthLevel.named (d : DepthLevel) : Record :=
  [("percentage", .float d.percentage), ("bid", .float d.bid), ("ask", .float d.ask)]

/-- A side as a list of levels; a side not supplied has none. -/
def Levels.datum (l : Levels) : Datum := .list (l.toList.map fun x => .record x.named)

/-- A book by name. -/
def Orderbook.named (b : Orderbook) : Record :=
  [("updateId", .unsigned b.updateId), ("bids", b.bids.datum), ("asks", b.asks.datum)]

/-- A legacy header by name. -/
def Header.named (h : Header) : Record :=
  [("timestamp", .signed h.timestamp), ("source", .text h.source), ("publisher", .text h.publisher)]

/-- A price by name. -/
def PriceEntry.named (e : PriceEntry) : Record :=
  [("source", .text e.source)] ++ optionalEntry "chain" (e.chain.map (.ordinal ·.val)) ++
    [("pair", .record e.pair.named), ("timestamp", .signed e.timestamp),
      ("price", .record e.price.named), ("volume", .record e.volume.named)] ++
    optionalEntry "expiration" (e.expiration.map .signed)

/-- An order book entry by name. -/
def OrderbookEntry.named (e : OrderbookEntry) : Record :=
  [("source", .text e.source), ("instrumentType", .ordinal e.instrumentType.val),
    ("pair", .record e.pair.named), ("type", .ordinal e.type.val), ("data", .record e.data.named),
    ("timestamp", .signed e.timestamp)]

/-- A depth entry by name. -/
def DepthEntry.named (e : DepthEntry) : Record :=
  [("source", .text e.source), ("instrumentType", .ordinal e.instrumentType.val),
    ("pair", .record e.pair.named), ("depth", .record e.depth.named)] ++
    optionalEntry "chain" (e.chain.map (.ordinal ·.val)) ++ [("timestamp", .signed e.timestamp)]

/-- A funding rate by name. -/
def FundingRateEntry.named (e : FundingRateEntry) : Record :=
  [("source", .text e.source), ("pair", .record e.pair.named), ("fundingRate", .float e.fundingRate),
    ("timestamp", .signed e.timestamp)]

/-- A trade by name. -/
def TradeEntry.named (e : TradeEntry) : Record :=
  [("source", .text e.source), ("instrumentType", .ordinal e.instrumentType.val),
    ("pair", .record e.pair.named), ("tradeId", .text e.tradeId),
    ("buyerAddress", .text e.buyerAddress), ("sellerAddress", .text e.sellerAddress),
    ("side", .ordinal e.side.val), ("size", .float e.size), ("price", .float e.price),
    ("timestamp", .signed e.timestamp)]

/-- A daily volume by name. -/
def VolumeEntry.named (e : VolumeEntry) : Record :=
  [("source", .text e.source), ("instrumentType", .ordinal e.instrumentType.val),
    ("pair", .record e.pair.named), ("volumeDaily", .float e.volumeDaily),
    ("timestamp", .signed e.timestamp)]

/-- An open interest figure by name. -/
def OpenInterestEntry.named (e : OpenInterestEntry) : Record :=
  [("source", .text e.source), ("pair", .record e.pair.named),
    ("openInterest", .float e.openInterest), ("timestamp", .signed e.timestamp)]

/-- A position by name. -/
def PositionEntry.named (e : PositionEntry) : Record :=
  [("source", .text e.source), ("instrumentType", .ordinal e.instrumentType.val),
    ("pair", .record e.pair.named), ("timestamp", .signed e.timestamp),
    ("receivedTimestamp", .signed e.receivedTimestamp), ("side", .ordinal e.side.val),
    ("notionalInUsd", .float e.notionalInUsd), ("size", .float e.size)]

/-- A global exposure by name. -/
def GlobalExposureEntry.named (e : GlobalExposureEntry) : Record :=
  [("source", .text e.source), ("timestamp", .signed e.timestamp), ("asset", .text e.asset),
    ("exposure", .float e.exposure)]

/-- A legacy price by name. -/
def MarketEntry.named (e : MarketEntry) : Record :=
  [("base", .record e.base.named), ("pairId", .text e.pairId), ("price", .record e.price.named),
    ("volume", .record e.volume.named)] ++
    optionalEntry "expirationTimestampMs" (e.expirationTimestampMs.map .unsigned)

/-- A legacy book by name. -/
def BookEntry.named (e : BookEntry) : Record :=
  [("base", .record e.base.named), ("instrumentType", .ordinal e.instrumentType.val),
    ("pair", .record e.pair.named), ("lastUpdateId", .unsigned e.lastUpdateId),
    ("bids", e.bids.datum), ("asks", e.asks.datum)]

/-- A legacy depth reading by name. -/
def LegacyDepth.named (e : LegacyDepth) : Record :=
  [("depth", .record e.depth.named), ("pair", .record e.pair.named), ("source", .text e.source),
    ("instrumentType", .ordinal e.instrumentType.val)] ++
    optionalEntry "chain" (e.chain.map (.ordinal ·.val))

/-- An entity of a kind by name. -/
def EntityKind.named : (k : EntityKind) → k.Carrier → Record
  | .price => PriceEntry.named
  | .orderbook => OrderbookEntry.named
  | .depth => DepthEntry.named
  | .fundingRate => FundingRateEntry.named
  | .trade => TradeEntry.named
  | .volume => VolumeEntry.named
  | .openInterest => OpenInterestEntry.named
  | .position => PositionEntry.named
  | .globalExposure => GlobalExposureEntry.named
  | .market => MarketEntry.named
  | .snapshot => BookEntry.named
  | .update => BookEntry.named
  | .legacyDepth => LegacyDepth.named

end MarketData

namespace MarketData.Protobuf

open Schema (Catalog Table Kind Datum Record)

/-! ## The writer the tables describe -/

/-- The payload a scalar kind writes for a value: text as its bytes, a signed integer as its two's
complement bits, an enumeration as a 32-bit integer sign-extended to 64 bits, a double as its
bits. A value of another kind has none. -/
@[simp] def scalarPayload : Kind → Datum → Option Payload
  | .text, .text b => some (.bytes b)
  | .int64, .signed i => some (.varint i.toUInt64)
  | .uint64, .unsigned w => some (.varint w)
  | .float64, .float x => some (.fixed64 x.bits)
  | .enum, .ordinal v => some (.varint v.toInt32.toInt64.toUInt64)
  | _, _ => none

/-- The fields one row of table `t` gives a record; `message` writes a nested record as the
message of the table it names. -/
@[simp] def rowFields (message : String → Record → Bytes) (t : Table) (record : Record)
    (row : Schema.Field) : List Field :=
  let occurrence (p : Payload) : Field := ⟨row.id.toNat, p⟩
  let nested (name : String) : Datum → List Field
    | .record r => [occurrence (.bytes (message name r))]
    | _ => []
  match Kind.ofName? row.kind, record.lookup row.name with
  | some .void, _ =>
    -- the void arm stands for its union when the union's payload arm is not named
    match t.union? row.union with
    | some (_, payload) => if (record.lookup payload.name).isNone then [occurrence (.bytes [])] else []
    | none => []
  | some .uint128, some d => nested "UInt128" d
  | some .struct, some d => nested row.type d
  | some .list, some (.list items) => items.flatMap (nested row.type)
  | some k, some d => (scalarPayload k d).toList.map occurrence
  | _, _ => []

/-- The fields the table named `name` in a catalog gives a record, row by row; a nested record is
written one level deeper, and nothing is written past the given depth. -/
def tableFields (c : Catalog) : Nat → String → Record → List Field
  | 0, _, _ => []
  | depth + 1, name, record =>
    match c.table? name with
    | some t => t.fields.flatMap (rowFields (fun n r => (tableFields c depth n r).flatMap Field.encode) t record)
    | none => []

/-- The fields the tables of a catalog prescribe for a record of the table named `name`. No table
nests itself, so nesting never goes deeper than there are tables. -/
def prescribedFields (c : Catalog) (name : String) (record : Record) : List Field :=
  tableFields c c.tables.length name record

/-- The fields of a message in the order a reader meets them. -/
def fieldsRead (b : Bytes) : Except Failure (List Field) :=
  foldFields (fun fs f => pure (fs ++ [f])) [] b

/-! ## Wire types and numbers -/

theorem scalarPayload_wireType {k : Kind} {d : Datum} {p : Payload} (h : scalarPayload k d = some p) :
    p.wireType = k.wireType := by
  cases k <;> cases d <;> cases h <;> rfl

theorem mem_rowFields {message : String → Record → Bytes} {t : Table} {record : Record}
    {row : Schema.Field} {f : Field} (member : f ∈ rowFields message t record row) :
    f.num = row.id.toNat ∧ ∃ k, Kind.ofName? row.kind = some k ∧ f.payload.wireType = k.wireType := by
  -- a nested record is one length-delimited field, whatever its datum
  have nested : ∀ {name : String} {d : Datum},
      f ∈ (match d with
        | .record r => [(⟨row.id.toNat, .bytes (message name r)⟩ : Field)]
        | _ => []) → f.num = row.id.toNat ∧ f.payload.wireType = 2 := by
    intro name d within
    cases d <;> simp at within
    subst within
    exact ⟨rfl, rfl⟩
  simp only [rowFields] at member
  split at member
  case h_1 _ _ ofName =>
    split at member
    · split at member
      · simp only [List.mem_singleton] at member
        subst member
        exact ⟨rfl, .void, ofName, rfl⟩
      · cases member
    · cases member
  case h_2 _ _ _ ofName _ =>
    obtain ⟨numbered, wire⟩ := nested member
    exact ⟨numbered, .uint128, ofName, wire⟩
  case h_3 _ _ _ ofName _ =>
    obtain ⟨numbered, wire⟩ := nested member
    exact ⟨numbered, .struct, ofName, wire⟩
  case h_4 _ _ _ ofName _ =>
    obtain ⟨item, _, within⟩ := List.mem_flatMap.1 member
    obtain ⟨numbered, wire⟩ := nested within
    exact ⟨numbered, .list, ofName, wire⟩
  case h_5 _ _ k _ _ _ _ _ ofName _ =>
    obtain ⟨p, written, rfl⟩ := List.mem_map.1 member
    exact ⟨rfl, k, ofName, scalarPayload_wireType (Option.mem_toList.1 written)⟩
  case h_6 => cases member

/-- Every field a table gives is under the number of one of its rows, with the wire type of that
row's kind. -/
theorem mem_tableFields {c : Catalog} {depth : Nat} {name : String} {record : Record} {f : Field}
    (member : f ∈ tableFields c depth name record) :
    ∃ t, c.table? name = some t ∧ ∃ row ∈ t.fields, row.id.toNat = f.num ∧
      ∃ k, Kind.ofName? row.kind = some k ∧ f.payload.wireType = k.wireType := by
  cases depth with
  | zero => cases member
  | succ depth =>
    rw [tableFields] at member
    split at member
    case h_1 t found =>
      obtain ⟨row, within, given⟩ := List.mem_flatMap.1 member
      obtain ⟨numbered, k, ofName, wire⟩ := mem_rowFields given
      exact ⟨t, found, row, within, numbered.symm, k, ofName, wire⟩
    case h_2 => cases member

theorem live_ascending : ∀ t ∈ Schema.live.tables, (t.fields.map (·.id.toNat)).Pairwise (· < ·) := by
  decide

theorem live_numbered : ∀ t ∈ Schema.live.tables, ∀ row ∈ t.fields, 0 < row.id.toNat ∧ row.id.toNat < 2 ^ 31 := by
  decide

/-! ## The live tables and the layouts -/

theorem ordinalWord_eq (v : UInt32) : ordinalWord v = v.toInt32.toInt64.toUInt64 := by
  apply UInt64.toNat_inj.1
  have below := v.toNat_lt
  -- sign extension adds 2^64 - 2^32 exactly when the top bit of the 32 is set
  have extended : v.toInt32.toInt64.toUInt64.toNat =
      v.toNat + if 2 ^ 31 ≤ v.toNat then 2 ^ 64 - 2 ^ 32 else 0 := by
    rw [← UInt64.toNat_toBitVec, Int64.toBitVec_toUInt64, Int32.toBitVec_toInt64,
      UInt32.toBitVec_toInt32, BitVec.toNat_signExtend, BitVec.msb_eq_decide, BitVec.toNat_setWidth,
      UInt32.toNat_toBitVec, Nat.mod_eq_of_lt (by omega)]
    simp
  rw [extended]
  unfold ordinalWord
  simp only [Nat.pow_eq]
  split
  · rw [if_neg (by omega)]
    simp
  · rw [if_pos (by omega)]
    simp
    omega

theorem table?_live (name : String) :
    Schema.live.table? name = (Schema.currentTables ++ Schema.legacyTables).find? (·.name == name) :=
  rfl

section Nested

variable (depth : Nat)

@[simp] theorem message_pair (p : Pair) :
    (tableFields Schema.live (depth + 1) "Pair" p.named).flatMap Field.encode = pairMessage p := by
  simp [tableFields, table?_live, Schema.currentTables, Schema.Table.current, Schema.Field.plain,
    Schema.Field.mk', List.lookup_cons, Pair.named, pairMessage_eq, pairFieldList]

@[simp] theorem message_amount (u : UInt128) :
    (tableFields Schema.live (depth + 1) "UInt128" u.named).flatMap Field.encode = amountMessage u := by
  simp [tableFields, table?_live, Schema.currentTables, Schema.Table.current, Schema.Field.plain,
    Schema.Field.mk', List.lookup_cons, UInt128.named, amountMessage_eq, amountFieldList]

@[simp] theorem message_level (l : Level) :
    (tableFields Schema.live (depth + 1) "BidOrAsk" l.named).flatMap Field.encode = levelMessage l := by
  simp [tableFields, table?_live, Schema.currentTables, Schema.Table.current, Schema.Field.plain,
    Schema.Field.mk', List.lookup_cons, Level.named, levelMessage_eq, levelFieldList]

@[simp] theorem message_depth (d : DepthLevel) :
    (tableFields Schema.live (depth + 1) "DepthLevel" d.named).flatMap Field.encode = depthMessage d := by
  simp [tableFields, table?_live, Schema.currentTables, Schema.Table.current, Schema.Field.plain,
    Schema.Field.mk', List.lookup_cons, DepthLevel.named, depthMessage_eq, depthFieldList]

@[simp] theorem message_header (h : Header) :
    (tableFields Schema.live (depth + 1) "BaseEntry" h.named).flatMap Field.encode = headerMessage h := by
  simp [tableFields, table?_live, Schema.currentTables, Schema.legacyTables, Schema.Table.current,
    Schema.Table.legacy, Schema.Field.plain, Schema.Field.mk', List.lookup_cons, Header.named, headerMessage_eq,
    headerFieldList, intWord]

/-- A book's levels are messages of the level table, so its own table is unfolded one level only. -/
@[simp] theorem message_book (b : Orderbook) :
    (tableFields Schema.live (depth + 2) "OrderbookData" b.named).flatMap Field.encode = bookMessage b := by
  rw [tableFields]
  simp [table?_live, Schema.currentTables, Schema.Table.current, Schema.Field.plain, Schema.Field.typed,
    Schema.Field.mk', List.lookup_cons, Orderbook.named, Levels.datum, bookMessage_eq, bookFieldList,
    sideFieldList, List.flatMap_map,
    ← List.map_eq_flatMap]

end Nested

/-- The live table of every kind gives the fields its layout writes. The union arms of the
optional fields are split first; every table is then evaluated row by row. -/
theorem tableFields_layout (depth : Nat) (k : EntityKind) (v : k.Carrier) :
    tableFields Schema.live (depth + 3) k.name (k.named v) = layoutFields k.layout v := by
  rw [tableFields]
  cases k
  case' price => rcases v with ⟨_, _ | _, _, _, _, _, _ | _⟩
  case' depth => rcases v with ⟨_, _, _, _, _ | _, _⟩
  case' market => rcases v with ⟨_, _, _, _, _ | _⟩
  case' legacyDepth => rcases v with ⟨_, _, _, _, _ | _⟩
  all_goals
    dsimp only [EntityKind.Carrier, EntityKind.layout, EntityKind.named, EntityKind.name]
    simp [table?_live, Schema.currentTables,
      Schema.legacyTables, Schema.bookFields, Schema.Table.current, Schema.Table.legacy, Schema.Field.plain,
      Schema.Field.typed, Schema.Field.mk', Schema.Table.union?, Schema.unionArms, Schema.Field.isVoid,
      List.lookup_cons, layoutFields, valueFields, intWord, ordinalWord_eq, PriceEntry.layout,
      OrderbookEntry.layout, DepthEntry.layout, FundingRateEntry.layout, TradeEntry.layout,
      VolumeEntry.layout, OpenInterestEntry.layout, PositionEntry.layout, GlobalExposureEntry.layout,
      MarketEntry.layout, BookEntry.layout, LegacyDepth.layout, PriceEntry.named, OrderbookEntry.named,
      DepthEntry.named, FundingRateEntry.named, TradeEntry.named, VolumeEntry.named, OpenInterestEntry.named,
      PositionEntry.named, GlobalExposureEntry.named, MarketEntry.named, BookEntry.named, LegacyDepth.named,
      Levels.datum, List.flatMap_map, ← List.map_eq_flatMap, sideFieldList]

theorem prescribedFields_live (k : EntityKind) (v : k.Carrier) :
    prescribedFields Schema.live k.name (k.named v) = layoutFields k.layout v := by
  have tables : Schema.live.tables.length = 16 + 3 := by decide
  rw [prescribedFields, tables]
  exact tableFields_layout 16 k v

/-! ## Reading the fields back -/

theorem foldlM_collect (fs acc : List Field) :
    fs.foldlM (fun fs f => (pure (fs ++ [f]) : Except Failure (List Field))) acc = .ok (acc ++ fs) := by
  induction fs generalizing acc with
  | nil => rw [List.foldlM_nil, List.append_nil]; rfl
  | cons f fs inductionHypothesis =>
    rw [List.foldlM_cons]
    exact (inductionHypothesis (acc ++ [f])).trans (by simp)

theorem fieldsRead_encode {fs : List Field} (numbered : ∀ f ∈ fs, 0 < f.num ∧ f.num < 2 ^ 31)
    (short : (fs.flatMap Field.encode).length < 2 ^ 64) : fieldsRead (fs.flatMap Field.encode) = .ok fs := by
  rw [fieldsRead, foldFields_encode _ numbered short, foldlM_collect, List.nil_append]

/-- The protobuf message of every entity is the fields its live table prescribes, in order: the
tables number their rows in ascending order, the message is those fields laid out one after the
other, a reader meets exactly them, and each carries the number of a row of the entity's table
and the wire type of that row's kind. -/
theorem encode_follows_field_tables (e : Entity) :
    (∀ t ∈ Schema.live.tables, (t.fields.map (·.id.toNat)).Pairwise (· < ·)) ∧
      encode e = (prescribedFields Schema.live e.kind.name (e.kind.named e.value)).flatMap Field.encode ∧
      ((encode e).length < 2 ^ 64 →
        fieldsRead (encode e) = .ok (prescribedFields Schema.live e.kind.name (e.kind.named e.value))) ∧
      ∀ f ∈ prescribedFields Schema.live e.kind.name (e.kind.named e.value),
        ∃ t, Schema.live.table? e.kind.name = some t ∧ ∃ row ∈ t.fields, row.id.toNat = f.num ∧
          ∃ k, Kind.ofName? row.kind = some k ∧ f.payload.wireType = k.wireType := by
  have written : encode e = (prescribedFields Schema.live e.kind.name (e.kind.named e.value)).flatMap
      Field.encode := by
    rw [prescribedFields_live, encode, encodeSlots_eq]
  have numbered : ∀ f ∈ prescribedFields Schema.live e.kind.name (e.kind.named e.value),
      0 < f.num ∧ f.num < 2 ^ 31 := by
    intro f member
    obtain ⟨t, found, row, within, numberOf, _⟩ := mem_tableFields member
    rw [← numberOf]
    exact live_numbered t (List.mem_of_find?_eq_some found) row within
  refine ⟨live_ascending, written, fun short => ?_, fun f member => mem_tableFields member⟩
  rw [written] at short ⊢
  exact fieldsRead_encode numbered short

/-- A trade whose size and price, two doubles, differ: read back, its message is the fields of
the trade table, the size under number 8 and the price under number 9. -/
theorem encode_follows_field_tables_trade :
    (encode ⟨.trade, { size := ⟨1⟩, price := ⟨2⟩ }⟩).length < 2 ^ 64 ∧
      fieldsRead (encode ⟨.trade, { size := ⟨1⟩, price := ⟨2⟩ }⟩) =
        .ok (prescribedFields Schema.live "TradeEntry" (TradeEntry.named { size := ⟨1⟩, price := ⟨2⟩ })) :=
  have short : (encode ⟨.trade, { size := ⟨1⟩, price := ⟨2⟩ }⟩).length < 2 ^ 64 := by decide +kernel
  ⟨short, (encode_follows_field_tables ⟨.trade, { size := ⟨1⟩, price := ⟨2⟩ }⟩).2.2.1 short⟩

end MarketData.Protobuf
