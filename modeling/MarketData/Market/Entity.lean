import MarketData.Market.Current
import MarketData.Market.Legacy
import MarketData.Text.Case

/-!
The thirteen entities and the types around them.

An entity is a value of one of thirteen kinds: nine current ones and four legacy ones. Each kind
has a catalog name, a generation, a type name, an empty value and a layout. Snapshots and
updates of a legacy book share a shape but are different kinds.

Codecs and migrations also meet values that are no entity, such as a bare pair, and lists of
entities. Such values are named in error messages by their type name, with `*` in front when the
value was passed by reference and `[]` in front of the element type of a list.
-/

namespace MarketData

/-- The kinds of entity. -/
inductive EntityKind where
  /-- A price tick. -/
  | price
  /-- An order book snapshot or update. -/
  | orderbook
  /-- A depth reading. -/
  | depth
  /-- A funding rate. -/
  | fundingRate
  /-- A trade. -/
  | trade
  /-- A daily volume. -/
  | volume
  /-- An open interest figure. -/
  | openInterest
  /-- A position. -/
  | position
  /-- A global exposure. -/
  | globalExposure
  /-- A legacy price tick. -/
  | market
  /-- A legacy book snapshot. -/
  | snapshot
  /-- A legacy book update. -/
  | update
  /-- A legacy depth reading. -/
  | legacyDepth
  deriving DecidableEq, Repr

/-- Whether a table is current or frozen. -/
inductive Generation where
  /-- Current tables may grow. -/
  | current
  /-- Legacy tables are frozen. -/
  | legacy
  deriving DecidableEq, Repr

/-- The spelling of a generation. -/
def Generation.name : Generation → String
  | .current => "current"
  | .legacy => "legacy"

namespace EntityKind

/-- All kinds, in catalog order: the current ones, then the legacy ones. -/
def all : List EntityKind :=
  [.price, .orderbook, .depth, .fundingRate, .trade, .volume, .openInterest, .position,
    .globalExposure, .market, .snapshot, .update, .legacyDepth]

/-- The catalog name of a kind. -/
def name : EntityKind → String
  | .price => "PriceEntry"
  | .orderbook => "OrderbookEntry"
  | .depth => "DepthEntry"
  | .fundingRate => "FundingRateEntry"
  | .trade => "TradeEntry"
  | .volume => "VolumeEntry"
  | .openInterest => "OpenInterestEntry"
  | .position => "PositionEntry"
  | .globalExposure => "GlobalExposureEntry"
  | .market => "MarketEntry"
  | .snapshot => "OrderbookSnapshot"
  | .update => "OrderbookUpdate"
  | .legacyDepth => "Depth"

/-- The generation of a kind. -/
def generation : EntityKind → Generation
  | .market | .snapshot | .update | .legacyDepth => .legacy
  | _ => .current

/-- The type name of a kind, qualified by its package. -/
def typeName (k : EntityKind) : String :=
  match k.generation with
  | .current => "models." ++ k.name
  | .legacy => "legacy." ++ k.name

/-- The type of the entities of a kind. -/
def Carrier : EntityKind → Type
  | .price => PriceEntry
  | .orderbook => OrderbookEntry
  | .depth => DepthEntry
  | .fundingRate => FundingRateEntry
  | .trade => TradeEntry
  | .volume => VolumeEntry
  | .openInterest => OpenInterestEntry
  | .position => PositionEntry
  | .globalExposure => GlobalExposureEntry
  | .market => MarketEntry
  | .snapshot => BookEntry
  | .update => BookEntry
  | .legacyDepth => LegacyDepth

/-- The empty entity of a kind: every field zero, empty or absent. -/
def empty : (k : EntityKind) → k.Carrier
  | .price => ({} : PriceEntry)
  | .orderbook => ({} : OrderbookEntry)
  | .depth => ({} : DepthEntry)
  | .fundingRate => ({} : FundingRateEntry)
  | .trade => ({} : TradeEntry)
  | .volume => ({} : VolumeEntry)
  | .openInterest => ({} : OpenInterestEntry)
  | .position => ({} : PositionEntry)
  | .globalExposure => ({} : GlobalExposureEntry)
  | .market => ({} : MarketEntry)
  | .snapshot => ({} : BookEntry)
  | .update => ({} : BookEntry)
  | .legacyDepth => ({} : LegacyDepth)

/-- The layout of a kind. -/
def layout : (k : EntityKind) → List (Slot k.Carrier)
  | .price => PriceEntry.layout
  | .orderbook => OrderbookEntry.layout
  | .depth => DepthEntry.layout
  | .fundingRate => FundingRateEntry.layout
  | .trade => TradeEntry.layout
  | .volume => VolumeEntry.layout
  | .openInterest => OpenInterestEntry.layout
  | .position => PositionEntry.layout
  | .globalExposure => GlobalExposureEntry.layout
  | .market => MarketEntry.layout
  | .snapshot => BookEntry.layout
  | .update => BookEntry.layout
  | .legacyDepth => LegacyDepth.layout

/-- Equality of entities of a kind is decidable. -/
instance decEqCarrier : (k : EntityKind) → DecidableEq k.Carrier
  | .price => inferInstanceAs (DecidableEq PriceEntry)
  | .orderbook => inferInstanceAs (DecidableEq OrderbookEntry)
  | .depth => inferInstanceAs (DecidableEq DepthEntry)
  | .fundingRate => inferInstanceAs (DecidableEq FundingRateEntry)
  | .trade => inferInstanceAs (DecidableEq TradeEntry)
  | .volume => inferInstanceAs (DecidableEq VolumeEntry)
  | .openInterest => inferInstanceAs (DecidableEq OpenInterestEntry)
  | .position => inferInstanceAs (DecidableEq PositionEntry)
  | .globalExposure => inferInstanceAs (DecidableEq GlobalExposureEntry)
  | .market => inferInstanceAs (DecidableEq MarketEntry)
  | .snapshot => inferInstanceAs (DecidableEq BookEntry)
  | .update => inferInstanceAs (DecidableEq BookEntry)
  | .legacyDepth => inferInstanceAs (DecidableEq LegacyDepth)

/-- The catalog names, sorted. -/
def sortedNames : List String :=
  ["Depth", "DepthEntry", "FundingRateEntry", "GlobalExposureEntry", "MarketEntry",
    "OpenInterestEntry", "OrderbookEntry", "OrderbookSnapshot", "OrderbookUpdate",
    "PositionEntry", "PriceEntry", "TradeEntry", "VolumeEntry"]

/-- The catalog names, sorted and separated by commas. -/
def knownNames : String := ", ".intercalate sortedNames

/-- Finds a kind by catalog name, ignoring case under simple case folding. -/
def lookup? (text : Bytes) : Option EntityKind :=
  all.find? fun k => Bytes.equalFoldAscii (Bytes.ofString k.name) text

/-- Finds a kind by catalog name; an unknown name fails, listing the known ones. -/
def lookup (text : Bytes) : Except Failure EntityKind :=
  match lookup? text with
  | some k => .ok k
  | none => .error (.plain
      s!"unknown entity {text.quoted} (known: {knownNames})")

theorem lookup?_name (k : EntityKind) : lookup? (Bytes.ofString k.name) = some k := by
  cases k <;> decide +kernel

end EntityKind

/-- An entity: its kind and its value. -/
structure Entity where
  /-- The kind of the entity. -/
  kind : EntityKind
  /-- The value. -/
  value : kind.Carrier

/-- The parts of entities that can be handed around on their own. -/
inductive Part where
  /-- An asset pair. -/
  | pair
  /-- An order book level. -/
  | level
  /-- A depth reading. -/
  | depthLevel
  /-- An order book update. -/
  | orderbook
  /-- A legacy header. -/
  | header
  /-- An amount. -/
  | amount
  deriving DecidableEq, Repr

/-- The type name of a part. -/
def Part.typeName : Part → String
  | .pair => "models.Pair"
  | .level => "models.BidOrAsk"
  | .depthLevel => "models.DepthLevel"
  | .orderbook => "models.OrderbookData"
  | .header => "legacy.BaseEntry"
  | .amount => "uint128.UInt128"

/-- The type of a value handed to a codec or a migration. -/
inductive ValueType where
  /-- An entity of a kind. -/
  | entity (k : EntityKind)
  /-- A list of entities of a kind. -/
  | list (k : EntityKind)
  /-- A part. -/
  | part (p : Part)
  deriving DecidableEq, Repr

/-- The name of a value type, with `*` in front for a value passed by reference. -/
def ValueType.describe (byReference : Bool) (t : ValueType) : String :=
  let base := match t with
    | .entity k => k.typeName
    | .list k => "[]" ++ k.typeName
    | .part p => p.typeName
  if byReference then "*" ++ base else base

end MarketData
