import MarketData.Market.Slot

/-!
The current entities.

Entities are plain values, built once from source data and then encoded. Timestamps are unix
milliseconds, except the expiration of a price, which is in unix seconds. Each entity comes with
its layout: its fields in identifier order, with their JSON keys.
-/

namespace MarketData

/-- A price tick; one without an expiration is a spot price. -/
structure PriceEntry where
  /-- Where the price came from. -/
  source : Bytes := []
  /-- The chain the price was observed on, if any. -/
  chain : Option Chain := none
  /-- The pair priced. -/
  pair : Pair := {}
  /-- When, in milliseconds. -/
  timestamp : Int64 := 0
  /-- The price, in fixed point. -/
  price : UInt128 := UInt128.zero
  /-- The traded volume, in fixed point. -/
  volume : UInt128 := UInt128.zero
  /-- The expiration of a future, in seconds. -/
  expiration : Option Int64 := none
  deriving DecidableEq, Repr, Inhabited

/-- An order book snapshot or update. -/
structure OrderbookEntry where
  /-- Where the book came from. -/
  source : Bytes := []
  /-- Spot or perpetual. -/
  instrumentType : InstrumentType := ⟨0⟩
  /-- The pair of the book. -/
  pair : Pair := {}
  /-- Whether this is a snapshot or an update. -/
  type : OrderbookUpdateType := ⟨0⟩
  /-- The levels. -/
  data : Orderbook := {}
  /-- When, in milliseconds. -/
  timestamp : Int64 := 0
  deriving DecidableEq, Repr, Inhabited

/-- The liquidity of a pair within a percentage of its mid price. -/
structure DepthEntry where
  /-- Where the reading came from. -/
  source : Bytes := []
  /-- Spot or perpetual. -/
  instrumentType : InstrumentType := ⟨0⟩
  /-- The pair. -/
  pair : Pair := {}
  /-- The reading. -/
  depth : DepthLevel := {}
  /-- The chain, if any. -/
  chain : Option Chain := none
  /-- When, in milliseconds. -/
  timestamp : Int64 := 0
  deriving DecidableEq, Repr, Inhabited

/-- A perpetual funding rate observation: the rate per period, not annualized. -/
structure FundingRateEntry where
  /-- Where the rate came from. -/
  source : Bytes := []
  /-- The pair. -/
  pair : Pair := {}
  /-- The rate per funding period. -/
  fundingRate : F64 := F64.zero
  /-- When, in milliseconds. -/
  timestamp : Int64 := 0
  deriving DecidableEq, Repr, Inhabited

/-- One executed trade; the addresses are empty where a venue does not disclose them. -/
structure TradeEntry where
  /-- Where the trade happened. -/
  source : Bytes := []
  /-- Spot or perpetual. -/
  instrumentType : InstrumentType := ⟨0⟩
  /-- The pair traded. -/
  pair : Pair := {}
  /-- The venue's identifier of the trade. -/
  tradeId : Bytes := []
  /-- The buyer. -/
  buyerAddress : Bytes := []
  /-- The seller. -/
  sellerAddress : Bytes := []
  /-- The aggressor side. -/
  side : TradeSide := ⟨0⟩
  /-- The quantity traded. -/
  size : F64 := F64.zero
  /-- The price of the trade. -/
  price : F64 := F64.zero
  /-- When, in milliseconds. -/
  timestamp : Int64 := 0
  deriving DecidableEq, Repr, Inhabited

/-- The rolling 24-hour traded volume of a pair. -/
structure VolumeEntry where
  /-- Where the volume came from. -/
  source : Bytes := []
  /-- Spot or perpetual. -/
  instrumentType : InstrumentType := ⟨0⟩
  /-- The pair. -/
  pair : Pair := {}
  /-- The volume over the last day. -/
  volumeDaily : F64 := F64.zero
  /-- When, in milliseconds. -/
  timestamp : Int64 := 0
  deriving DecidableEq, Repr, Inhabited

/-- The open interest of a pair. -/
structure OpenInterestEntry where
  /-- Where the figure came from. -/
  source : Bytes := []
  /-- The pair. -/
  pair : Pair := {}
  /-- The open interest. -/
  openInterest : F64 := F64.zero
  /-- When, in milliseconds. -/
  timestamp : Int64 := 0
  deriving DecidableEq, Repr, Inhabited

/-- An open position as a venue reports it. -/
structure PositionEntry where
  /-- The venue. -/
  source : Bytes := []
  /-- Spot or perpetual. -/
  instrumentType : InstrumentType := ⟨0⟩
  /-- The pair. -/
  pair : Pair := {}
  /-- When the venue produced the report, in milliseconds. -/
  timestamp : Int64 := 0
  /-- When the report was collected, in milliseconds. -/
  receivedTimestamp : Int64 := 0
  /-- Long (buy) or short (sell). -/
  side : TradeSide := ⟨0⟩
  /-- The notional value in US dollars. -/
  notionalInUsd : F64 := F64.zero
  /-- The size of the position. -/
  size : F64 := F64.zero
  deriving DecidableEq, Repr, Inhabited

/-- The aggregate exposure of a source to one asset. -/
structure GlobalExposureEntry where
  /-- The source exposed. -/
  source : Bytes := []
  /-- When, in milliseconds. -/
  timestamp : Int64 := 0
  /-- The asset. -/
  asset : Bytes := []
  /-- The exposure. -/
  exposure : F64 := F64.zero
  deriving DecidableEq, Repr, Inhabited

/-- The fields of a price tick. -/
def PriceEntry.layout : List (Slot PriceEntry) :=
  [ ⟨1, "source", .text, (·.source), fun v e => { e with source := v }⟩,
    ⟨2, "chain", .optional (.ordinal .chain), (·.chain), fun v e => { e with chain := v }⟩,
    ⟨4, "pair", .pair, (·.pair), fun v e => { e with pair := v }⟩,
    ⟨5, "timestamp", .int, (·.timestamp), fun v e => { e with timestamp := v }⟩,
    ⟨6, "price", .amount, (·.price), fun v e => { e with price := v }⟩,
    ⟨7, "volume", .amount, (·.volume), fun v e => { e with volume := v }⟩,
    ⟨8, "expiration", .optional .int, (·.expiration), fun v e => { e with expiration := v }⟩ ]

/-- The fields of an order book entry. -/
def OrderbookEntry.layout : List (Slot OrderbookEntry) :=
  [ ⟨1, "source", .text, (·.source), fun v e => { e with source := v }⟩,
    ⟨2, "instrument_type", .ordinal .instrumentType, (·.instrumentType),
      fun v e => { e with instrumentType := v }⟩,
    ⟨3, "pair", .pair, (·.pair), fun v e => { e with pair := v }⟩,
    ⟨4, "type", .ordinal .orderbookUpdateType, (·.type), fun v e => { e with type := v }⟩,
    ⟨5, "data", .book, (·.data), fun v e => { e with data := v }⟩,
    ⟨6, "timestamp", .int, (·.timestamp), fun v e => { e with timestamp := v }⟩ ]

/-- The fields of a depth entry. -/
def DepthEntry.layout : List (Slot DepthEntry) :=
  [ ⟨1, "source", .text, (·.source), fun v e => { e with source := v }⟩,
    ⟨2, "instrument_type", .ordinal .instrumentType, (·.instrumentType),
      fun v e => { e with instrumentType := v }⟩,
    ⟨3, "pair", .pair, (·.pair), fun v e => { e with pair := v }⟩,
    ⟨4, "depth", .depth, (·.depth), fun v e => { e with depth := v }⟩,
    ⟨5, "chain", .optional (.ordinal .chain), (·.chain), fun v e => { e with chain := v }⟩,
    ⟨7, "timestamp", .int, (·.timestamp), fun v e => { e with timestamp := v }⟩ ]

/-- The fields of a funding rate entry. -/
def FundingRateEntry.layout : List (Slot FundingRateEntry) :=
  [ ⟨1, "source", .text, (·.source), fun v e => { e with source := v }⟩,
    ⟨2, "pair", .pair, (·.pair), fun v e => { e with pair := v }⟩,
    ⟨3, "funding_rate", .float, (·.fundingRate), fun v e => { e with fundingRate := v }⟩,
    ⟨4, "timestamp", .int, (·.timestamp), fun v e => { e with timestamp := v }⟩ ]

/-- The fields of a trade entry. -/
def TradeEntry.layout : List (Slot TradeEntry) :=
  [ ⟨1, "source", .text, (·.source), fun v e => { e with source := v }⟩,
    ⟨2, "instrument_type", .ordinal .instrumentType, (·.instrumentType),
      fun v e => { e with instrumentType := v }⟩,
    ⟨3, "pair", .pair, (·.pair), fun v e => { e with pair := v }⟩,
    ⟨4, "trade_id", .text, (·.tradeId), fun v e => { e with tradeId := v }⟩,
    ⟨5, "buyer_address", .text, (·.buyerAddress), fun v e => { e with buyerAddress := v }⟩,
    ⟨6, "seller_address", .text, (·.sellerAddress), fun v e => { e with sellerAddress := v }⟩,
    ⟨7, "side", .ordinal .tradeSide, (·.side), fun v e => { e with side := v }⟩,
    ⟨8, "size", .float, (·.size), fun v e => { e with size := v }⟩,
    ⟨9, "price", .float, (·.price), fun v e => { e with price := v }⟩,
    ⟨10, "timestamp", .int, (·.timestamp), fun v e => { e with timestamp := v }⟩ ]

/-- The fields of a volume entry. -/
def VolumeEntry.layout : List (Slot VolumeEntry) :=
  [ ⟨1, "source", .text, (·.source), fun v e => { e with source := v }⟩,
    ⟨2, "instrument_type", .ordinal .instrumentType, (·.instrumentType),
      fun v e => { e with instrumentType := v }⟩,
    ⟨3, "pair", .pair, (·.pair), fun v e => { e with pair := v }⟩,
    ⟨4, "volume_daily", .float, (·.volumeDaily), fun v e => { e with volumeDaily := v }⟩,
    ⟨5, "timestamp", .int, (·.timestamp), fun v e => { e with timestamp := v }⟩ ]

/-- The fields of an open interest entry. -/
def OpenInterestEntry.layout : List (Slot OpenInterestEntry) :=
  [ ⟨1, "source", .text, (·.source), fun v e => { e with source := v }⟩,
    ⟨2, "pair", .pair, (·.pair), fun v e => { e with pair := v }⟩,
    ⟨3, "open_interest", .float, (·.openInterest), fun v e => { e with openInterest := v }⟩,
    ⟨4, "timestamp", .int, (·.timestamp), fun v e => { e with timestamp := v }⟩ ]

/-- The fields of a position entry. -/
def PositionEntry.layout : List (Slot PositionEntry) :=
  [ ⟨1, "source", .text, (·.source), fun v e => { e with source := v }⟩,
    ⟨2, "instrument_type", .ordinal .instrumentType, (·.instrumentType),
      fun v e => { e with instrumentType := v }⟩,
    ⟨3, "pair", .pair, (·.pair), fun v e => { e with pair := v }⟩,
    ⟨4, "timestamp", .int, (·.timestamp), fun v e => { e with timestamp := v }⟩,
    ⟨5, "received_timestamp", .int, (·.receivedTimestamp),
      fun v e => { e with receivedTimestamp := v }⟩,
    ⟨6, "side", .ordinal .tradeSide, (·.side), fun v e => { e with side := v }⟩,
    ⟨7, "notional_in_usd", .float, (·.notionalInUsd), fun v e => { e with notionalInUsd := v }⟩,
    ⟨8, "size", .float, (·.size), fun v e => { e with size := v }⟩ ]

/-- The fields of a global exposure entry. -/
def GlobalExposureEntry.layout : List (Slot GlobalExposureEntry) :=
  [ ⟨1, "source", .text, (·.source), fun v e => { e with source := v }⟩,
    ⟨2, "timestamp", .int, (·.timestamp), fun v e => { e with timestamp := v }⟩,
    ⟨3, "asset", .text, (·.asset), fun v e => { e with asset := v }⟩,
    ⟨4, "exposure", .float, (·.exposure), fun v e => { e with exposure := v }⟩ ]

/-- A price entry with an expiration is a perpetual; without one it is spot. -/
def PriceEntry.instrumentType (e : PriceEntry) : InstrumentType :=
  if e.expiration.isSome then ⟨1⟩ else ⟨0⟩

end MarketData
