import MarketData.Codec

/-!
Moving entities between the legacy and the current tables.

Legacy entries count time in seconds and current ones in milliseconds, except the expiration of
a price, which is in seconds in the current table and in unsigned milliseconds in the legacy one.
A conversion to milliseconds fails when the result leaves the range of its integer type, and a
negative instant has no unsigned form; a conversion to seconds truncates toward zero.

A legacy market entry names its pair by an identifier, which must read as a pair; a price entry
writes its pair as `BASE/QUOTE`. Books and depth readings must carry known instrument types and
chains, and a current book goes to the legacy table of its own update type. Every failure names
the entry it came from.

Migration takes any entity to its counterpart; the other entities and the parts of entities
have none.
-/

namespace MarketData.Migration

/-- Seconds as milliseconds; fails outside the range of 64-bit signed integers. -/
def secondsToMillis (field : String) (s : Int64) : Except Failure Int64 :=
  let limit : Int := (Int.pow 2 63 - 1) / 1000
  if s.toInt > limit || s.toInt < -limit then
    .error (.coded .rangeExceeded s!"{field}: {s.toInt} s does not fit in int64 milliseconds")
  else .ok (Int64.ofInt (s.toInt * 1000))

/-- Milliseconds as seconds, truncated toward zero. -/
def millisToSeconds (ms : Int64) : Int64 := Int64.ofInt (ms.toInt.tdiv 1000)

/-- Unsigned milliseconds as seconds. -/
def unsignedMillisToSeconds (field : String) (ms : UInt64) : Except Failure Int64 :=
  let s := ms.toNat / 1000
  if s > Nat.pow 2 63 - 1 then
    .error (.coded .rangeExceeded s!"{field}: {ms.toNat} ms does not fit in int64 seconds")
  else .ok (Int64.ofNat s)

/-- Seconds as unsigned milliseconds; fails for a negative instant and past 64 bits. -/
def secondsToUnsignedMillis (field : String) (s : Int64) : Except Failure UInt64 :=
  if s.toInt < 0 then
    .error (.coded .rangeExceeded s!"{field}: negative instant {s.toInt} s has no unsigned encoding")
  else if s.toInt.toNat > (Nat.pow 2 64 - 1) / 1000 then
    .error (.coded .rangeExceeded s!"{field}: {s.toInt} s does not fit in uint64 milliseconds")
  else .ok (s.toInt.toNat * 1000).toUInt64

/-- A legacy market entry as a price entry. -/
def marketToPrice (m : MarketEntry) : Except Failure PriceEntry := Failure.wrap "market entry" do
  let pair ← Pair.parse m.pairId
  let timestamp ← secondsToMillis "timestamp" m.base.timestamp
  let expiration ← m.expirationTimestampMs.mapM (unsignedMillisToSeconds "expiration_timestamp_ms")
  pure { source := m.base.source, chain := none, pair, timestamp, price := m.price,
         volume := m.volume, expiration }

/-- A price entry as a legacy market entry of a publisher. -/
def priceToMarket (p : PriceEntry) (publisher : Bytes) : Except Failure MarketEntry :=
  Failure.wrap "price entry" do
  let expiration ← p.expiration.mapM (secondsToUnsignedMillis "expiration")
  pure { base := { timestamp := millisToSeconds p.timestamp, source := p.source, publisher },
         pairId := p.pair.render, price := p.price, volume := p.volume,
         expirationTimestampMs := expiration }

/-- A snapshot. -/
def snapshotType : OrderbookUpdateType := ⟨1⟩

/-- An update. -/
def updateType : OrderbookUpdateType := ⟨0⟩

/-- A legacy book of an update type as a current book. -/
def bookToOrderbook (type : OrderbookUpdateType) (b : BookEntry) : Except Failure OrderbookEntry :=
  Failure.wrap s!"orderbook {type.render}" do
  b.instrumentType.check
  let timestamp ← secondsToMillis "timestamp" b.base.timestamp
  pure { source := b.base.source, instrumentType := b.instrumentType, pair := b.pair, type,
         data := { updateId := b.lastUpdateId, bids := b.bids, asks := b.asks }, timestamp }

/-- A current book as a legacy book of the wanted update type, published by `publisher`. -/
def orderbookToBook (want : OrderbookUpdateType) (e : OrderbookEntry) (publisher : Bytes) :
    Except Failure BookEntry := do
  Failure.wrap "orderbook entry" e.type.check
  if e.type ≠ want then
    throw (.coded .unsupportedType
      s!"orderbook entry of type {e.type.render} cannot become a legacy {want.render}")
  Failure.wrap "orderbook entry" e.instrumentType.check
  pure { base := { timestamp := millisToSeconds e.timestamp, source := e.source, publisher },
         instrumentType := e.instrumentType, pair := e.pair, lastUpdateId := e.data.updateId,
         bids := e.data.bids, asks := e.data.asks }

/-- The instrument type, and the chain if there is one, must be known. -/
def checkDepth (t : InstrumentType) (chain : Option Chain) : Except Failure Unit := do
  t.check
  match chain with
  | some c => c.check
  | none => pure ()

/-- A legacy depth reading as a current one taken at `timestamp` milliseconds. -/
def depthToEntry (d : LegacyDepth) (timestamp : Int64) : Except Failure DepthEntry := do
  Failure.wrap "depth" (checkDepth d.instrumentType d.chain)
  pure { source := d.source, instrumentType := d.instrumentType, pair := d.pair, depth := d.depth,
         chain := d.chain, timestamp }

/-- A current depth reading as a legacy one. -/
def entryToDepth (e : DepthEntry) : Except Failure LegacyDepth := do
  Failure.wrap "depth entry" (checkDepth e.instrumentType e.chain)
  pure { depth := e.depth, pair := e.pair, source := e.source, instrumentType := e.instrumentType,
         chain := e.chain }

/-- What a migration needs beyond the entity. -/
structure Options where
  /-- The publisher of legacy entries made from current ones. -/
  publisher : Bytes := []
  /-- The time given to depth readings made from legacy ones, in milliseconds. -/
  depthTimestampMs : Int64 := 0

/-- Moves an entity to its counterpart in the other generation. -/
def migrate (subject : Subject) (byReference : Bool) (opts : Options) : Except Failure Entity :=
  let none : Except Failure Entity := .error (.coded .unsupportedType
    s!"bridge: no counterpart for {subject.type.describe byReference}")
  match subject with
  | .entity ⟨.market, m⟩ => (marketToPrice m).map fun v => ⟨.price, v⟩
  | .entity ⟨.snapshot, b⟩ => (bookToOrderbook snapshotType b).map fun v => ⟨.orderbook, v⟩
  | .entity ⟨.update, b⟩ => (bookToOrderbook updateType b).map fun v => ⟨.orderbook, v⟩
  | .entity ⟨.legacyDepth, d⟩ => (depthToEntry d opts.depthTimestampMs).map fun v => ⟨.depth, v⟩
  | .entity ⟨.price, p⟩ => (priceToMarket p opts.publisher).map fun v => ⟨.market, v⟩
  | .entity ⟨.orderbook, e⟩ =>
    if e.type = updateType then (orderbookToBook updateType e opts.publisher).map fun v => ⟨.update, v⟩
    else (orderbookToBook snapshotType e opts.publisher).map fun v => ⟨.snapshot, v⟩
  | .entity ⟨.depth, e⟩ => (entryToDepth e).map fun v => ⟨.legacyDepth, v⟩
  | _ => none

end MarketData.Migration
