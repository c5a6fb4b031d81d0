import MarketData.Schema.Table

/-!
The live field tables.

The current generation comes first, nested value types included (`Pair`, `UInt128`,
`BidOrAsk`, `DepthLevel`, `OrderbookData`), then the legacy generation, which shares those value
types and adds its own `BaseEntry`. `OrderbookSnapshot` and `OrderbookUpdate` share one table.
-/

namespace MarketData.Schema

/-- A field of a kind, with the type it names and its union. -/
def Field.mk' (id : UInt32) (name : String) (kind : Kind) (type union : String) : Field :=
  ⟨id, name, kind.name, type, union⟩

/-- A field of a kind that names no type and belongs to no union. -/
def Field.plain (id : UInt32) (name : String) (kind : Kind) : Field := Field.mk' id name kind "" ""

/-- A field whose kind names a type. -/
def Field.typed (id : UInt32) (name : String) (kind : Kind) (type : String) : Field :=
  Field.mk' id name kind type ""

/-- A table of the current generation with no reserved numbers. -/
def Table.current (name : String) (fields : List Field) : Table := ⟨name, Generation.current.name, fields, []⟩

/-- A table of the legacy generation with no reserved numbers. -/
def Table.legacy (name : String) (fields : List Field) : Table := ⟨name, Generation.legacy.name, fields, []⟩

open MarketData.Schema.Field in
/-- The tables of the current generation. -/
def currentTables : List Table := [
  .current "Pair" [plain 1 "base" .text, plain 2 "quote" .text],
  .current "UInt128" [plain 1 "low" .uint64, plain 2 "high" .uint64],
  .current "BidOrAsk" [plain 1 "price" .float64, plain 2 "quantity" .float64],
  .current "DepthLevel" [plain 1 "percentage" .float64, plain 2 "bid" .float64, plain 3 "ask" .float64],
  .current "OrderbookData" [plain 1 "updateId" .uint64, typed 2 "bids" .list "BidOrAsk",
    typed 3 "asks" .list "BidOrAsk"],
  .current "PriceEntry" [plain 1 "source" .text, mk' 2 "noChain" .void "" "chain",
    mk' 3 "chain" .enum "Chain" "chain", typed 4 "pair" .struct "Pair", plain 5 "timestamp" .int64,
    plain 6 "price" .uint128, plain 7 "volume" .uint128, mk' 8 "noExpiration" .void "" "expiration",
    mk' 9 "expiration" .int64 "" "expiration"],
  .current "OrderbookEntry" [plain 1 "source" .text, typed 2 "instrumentType" .enum "InstrumentType",
    typed 3 "pair" .struct "Pair", typed 4 "type" .enum "OrderbookUpdateType",
    typed 5 "data" .struct "OrderbookData", plain 6 "timestamp" .int64],
  .current "DepthEntry" [plain 1 "source" .text, typed 2 "instrumentType" .enum "InstrumentType",
    typed 3 "pair" .struct "Pair", typed 4 "depth" .struct "DepthLevel", mk' 5 "noChain" .void "" "chain",
    mk' 6 "chain" .enum "Chain" "chain", plain 7 "timestamp" .int64],
  .current "FundingRateEntry" [plain 1 "source" .text, typed 2 "pair" .struct "Pair",
    plain 3 "fundingRate" .float64, plain 4 "timestamp" .int64],
  .current "TradeEntry" [plain 1 "source" .text, typed 2 "instrumentType" .enum "InstrumentType",
    typed 3 "pair" .struct "Pair", plain 4 "tradeId" .text, plain 5 "buyerAddress" .text,
    plain 6 "sellerAddress" .text, typed 7 "side" .enum "TradeSide", plain 8 "size" .float64,
    plain 9 "price" .float64, plain 10 "timestamp" .int64],
  .current "VolumeEntry" [plain 1 "source" .text, typed 2 "instrumentType" .enum "InstrumentType",
    typed 3 "pair" .struct "Pair", plain 4 "volumeDaily" .float64, plain 5 "timestamp" .int64],
  .current "OpenInterestEntry" [plain 1 "source" .text, typed 2 "pair" .struct "Pair",
    plain 3 "openInterest" .float64, plain 4 "timestamp" .int64],
  .current "PositionEntry" [plain 1 "source" .text, typed 2 "instrumentType" .enum "InstrumentType",
    typed 3 "pair" .struct "Pair", plain 4 "timestamp" .int64, plain 5 "receivedTimestamp" .int64,
    typed 6 "side" .enum "TradeSide", plain 7 "notionalInUsd" .float64, plain 8 "size" .float64],
  .current "GlobalExposureEntry" [plain 1 "source" .text, plain 2 "timestamp" .int64,
    plain 3 "asset" .text, plain 4 "exposure" .float64]]

open MarketData.Schema.Field in
/-- The fields shared by the legacy order book tables. -/
def bookFields : List Field :=
  [typed 1 "base" .struct "BaseEntry", typed 2 "instrumentType" .enum "InstrumentType",
    typed 3 "pair" .struct "Pair", plain 4 "lastUpdateId" .uint64, typed 5 "bids" .list "BidOrAsk",
    typed 6 "asks" .list "BidOrAsk"]

open MarketData.Schema.Field in
/-- The tables of the legacy generation. -/
def legacyTables : List Table := [
  .legacy "BaseEntry" [plain 1 "timestamp" .int64, plain 2 "source" .text, plain 3 "publisher" .text],
  .legacy "MarketEntry" [typed 1 "base" .struct "BaseEntry", plain 2 "pairId" .text,
    plain 3 "price" .uint128, plain 4 "volume" .uint128, mk' 5 "noExpiration" .void "" "expiration",
    mk' 6 "expirationTimestampMs" .uint64 "" "expiration"],
  .legacy "OrderbookSnapshot" bookFields,
  .legacy "OrderbookUpdate" bookFields,
  .legacy "Depth" [typed 1 "depth" .struct "DepthLevel", typed 2 "pair" .struct "Pair",
    plain 3 "source" .text, typed 4 "instrumentType" .enum "InstrumentType",
    mk' 5 "noChain" .void "" "chain", mk' 6 "chain" .enum "Chain" "chain"]]

/-- The live catalog: the current tables, then the legacy ones. -/
def live : Catalog := ⟨currentTables ++ legacyTables⟩

end MarketData.Schema
