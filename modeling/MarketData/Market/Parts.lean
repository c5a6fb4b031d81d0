import MarketData.Number.Float
import MarketData.Text.Bytes

/-!
The parts entities are built from.

An order book side is a list of levels, each a price and the quantity resting at it, in the
order the source supplied them. Whether a side was supplied at all is kept apart from an empty
side: the JSON form writes the first as `null` and the second as `[]`. A depth reading is the
liquidity on each side within a percentage of the mid price. A legacy entry opens with a
header: when, from which source, and by which publisher.
-/

namespace MarketData

/-- One order book level. -/
structure Level where
  /-- The price of the level. -/
  price : F64 := F64.zero
  /-- The quantity resting at that price. -/
  quantity : F64 := F64.zero
  deriving DecidableEq, Repr, Inhabited

/-- One side of a book as supplied: `none` when no list was given. -/
abbrev Levels := Option (List Level)

namespace Levels

/-- The levels of a side; none when it was not supplied. -/
def toList (l : Levels) : List Level := l.getD []

/-- A side read back from a wire form: an empty side reads as not supplied. -/
def ofList : List Level → Levels
  | [] => none
  | l => some l

@[simp] theorem toList_ofList (l : List Level) : (ofList l).toList = l := by
  cases l <;> rfl

end Levels

/-- The liquidity within a percentage of the mid price. -/
structure DepthLevel where
  /-- The distance from the mid price, in percent. -/
  percentage : F64 := F64.zero
  /-- The bid liquidity within it. -/
  bid : F64 := F64.zero
  /-- The ask liquidity within it. -/
  ask : F64 := F64.zero
  deriving DecidableEq, Repr, Inhabited

/-- An order book update: its sequence number and both sides. -/
structure Orderbook where
  /-- The sequence number of the update at the source. -/
  updateId : UInt64 := 0
  /-- The bid side. -/
  bids : Levels := none
  /-- The ask side. -/
  asks : Levels := none
  deriving DecidableEq, Repr, Inhabited

/-- The header of a legacy entry. -/
structure Header where
  /-- When the entry was produced, in seconds. -/
  timestamp : Int64 := 0
  /-- Where the data came from. -/
  source : Bytes := []
  /-- Who published it. -/
  publisher : Bytes := []
  deriving DecidableEq, Repr, Inhabited

end MarketData
