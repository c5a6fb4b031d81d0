import MarketData.Market.Slot

/-!
The legacy entities.

The legacy tables are frozen: they keep the shapes older publishers wrote. Each opens with a
header whose timestamp is in seconds; a market entry names its pair by an identifier text and
gives its expiration in milliseconds. Snapshots and updates of a book share one shape.
-/

namespace MarketData

/-- A legacy price tick. -/
structure MarketEntry where
  /-- When, from where, by whom. -/
  base : Header := {}
  /-- The pair, as an identifier such as `BTC/USD`. -/
  pairId : Bytes := []
  /-- The price, in fixed point. -/
  price : UInt128 := UInt128.zero
  /-- The traded volume, in fixed point. -/
  volume : UInt128 := UInt128.zero
  /-- The expiration of a future, in milliseconds. -/
  expirationTimestampMs : Option UInt64 := none
  deriving DecidableEq, Repr, Inhabited

/-- A legacy order book, a snapshot or an update. -/
structure BookEntry where
  /-- When, from where, by whom. -/
  base : Header := {}
  /-- Spot or perpetual. -/
  instrumentType : InstrumentType := ⟨0⟩
  /-- The pair of the book. -/
  pair : Pair := {}
  /-- The sequence number of the last update applied. -/
  lastUpdateId : UInt64 := 0
  /-- The bid side. -/
  bids : Levels := none
  /-- The ask side. -/
  asks : Levels := none
  deriving DecidableEq, Repr, Inhabited

/-- A legacy depth reading. -/
structure LegacyDepth where
  /-- The reading. -/
  depth : DepthLevel := {}
  /-- The pair. -/
  pair : Pair := {}
  /-- Where the reading came from. -/
  source : Bytes := []
  /-- Spot or perpetual. -/
  instrumentType : InstrumentType := ⟨0⟩
  /-- The chain, if any. -/
  chain : Option Chain := none
  deriving DecidableEq, Repr, Inhabited

/-- The fields of a legacy price tick. -/
def MarketEntry.layout : List (Slot MarketEntry) :=
  [ ⟨1, "base", .header, (·.base), fun v e => { e with base := v }⟩,
    ⟨2, "pair_id", .text, (·.pairId), fun v e => { e with pairId := v }⟩,
    ⟨3, "price", .amount, (·.price), fun v e => { e with price := v }⟩,
    ⟨4, "volume", .amount, (·.volume), fun v e => { e with volume := v }⟩,
    ⟨5, "expiration_timestamp_ms", .optional .word, (·.expirationTimestampMs),
      fun v e => { e with expirationTimestampMs := v }⟩ ]

/-- The fields of a legacy book. -/
def BookEntry.layout : List (Slot BookEntry) :=
  [ ⟨1, "base", .header, (·.base), fun v e => { e with base := v }⟩,
    ⟨2, "instrument_type", .ordinal .instrumentType, (·.instrumentType),
      fun v e => { e with instrumentType := v }⟩,
    ⟨3, "pair", .pair, (·.pair), fun v e => { e with pair := v }⟩,
    ⟨4, "last_update_id", .word, (·.lastUpdateId), fun v e => { e with lastUpdateId := v }⟩,
    ⟨5, "bids", .levels, (·.bids), fun v e => { e with bids := v }⟩,
    ⟨6, "asks", .levels, (·.asks), fun v e => { e with asks := v }⟩ ]

/-- The fields of a legacy depth reading. -/
def LegacyDepth.layout : List (Slot LegacyDepth) :=
  [ ⟨1, "depth", .depth, (·.depth), fun v e => { e with depth := v }⟩,
    ⟨2, "pair", .pair, (·.pair), fun v e => { e with pair := v }⟩,
    ⟨3, "source", .text, (·.source), fun v e => { e with source := v }⟩,
    ⟨4, "instrument_type", .ordinal .instrumentType, (·.instrumentType),
      fun v e => { e with instrumentType := v }⟩,
    ⟨5, "chain", .optional (.ordinal .chain), (·.chain), fun v e => { e with chain := v }⟩ ]

end MarketData
