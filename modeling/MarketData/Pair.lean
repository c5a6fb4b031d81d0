import MarketData.Failure
import MarketData.Text.Blank
import MarketData.Text.Case
import MarketData.Text.Quoted

/-!
Asset pairs.

A pair names a base asset and the quote asset it is priced in, written `BASE/QUOTE`. Pairs are
compared exactly; the constructors trim blanks and uppercase both legs. An identifier is read
with exactly one separator, which may be `/`, `-` or `_`.

Exchanges spell their contracts without separators and against stable coins; such a symbol maps
onto the USD quote when it ends in USDT, USDC, USD or DAI (tried in that order) after a
non-empty base.
-/

namespace MarketData

/-- A base asset priced in a quote asset. -/
structure Pair where
  /-- The asset priced. -/
  base : Bytes := []
  /-- The asset the price is in. -/
  quote : Bytes := []
  deriving DecidableEq, Repr, Inhabited

namespace Pair

/-- The legs joined by a separator. -/
def format (p : Pair) (sep : Bytes) : Bytes := p.base ++ sep ++ p.quote

/-- The identifier `BASE/QUOTE`. -/
def render (p : Pair) : Bytes := p.format [0x2F]

/-- A leg as the constructors store it: trimmed and uppercase. -/
def normalLeg (leg : Bytes) : Bytes := leg.trimBlank.toUpper

/-- The pair of two legs, each trimmed and uppercased. -/
def make (base quote : Bytes) : Pair := ⟨normalLeg base, normalLeg quote⟩

/-- Reads `BASE/QUOTE`, `BASE-QUOTE` or `BASE_QUOTE`: exactly one separator and two non-empty
legs. -/
def parse (id : Bytes) : Except Failure Pair :=
  let normalized : Bytes := id.map fun b => if b == 0x2D || b == 0x5F then 0x2F else b
  match Bytes.splitOnByte 0x2F normalized with
  | [base, quote] =>
    let p := make base quote
    if p.base.isEmpty || p.quote.isEmpty then
      .error (.coded .invalidPair s!"pair {id.quoted}: empty leg")
    else .ok p
  | _ => .error (.coded .invalidPair s!"pair {id.quoted}: expected BASE/QUOTE")

/-- The stable coins a symbol may be quoted in, tried in this order. -/
def stableQuotes : List String := ["USDT", "USDC", "USD", "DAI"]

/-- Maps an exchange symbol quoted in a stable coin onto the USD quote; separators are ignored
and the base must not be empty. -/
def ofStableSymbol? (sym : Bytes) : Option Pair :=
  let normalized : Bytes := sym.toUpper.filter fun b => !(b == 0x2D || b == 0x5F || b == 0x2F)
  stableQuotes.findSome? fun stable =>
    match Bytes.stripSuffix? (Bytes.ofString stable) normalized with
    | some base => if base.isEmpty then none else some ⟨base, Bytes.ofString "USD"⟩
    | none => none

/-- The symbol of an exchange contract in the common spelling: multiplier prefixes dropped on
binance and bybit, dashes and the margin suffix dropped on kucoin, the swap suffix dropped on
okx, and XBT read as BTC on kucoin and kraken. -/
def normalizeSymbol (exchange : Bytes) (sym : Bytes) : Bytes :=
  let sym := sym.trimBlank.toUpper
  let venue := exchange.toLower
  let xbt (s : Bytes) : Bytes :=
    match Bytes.stripPrefix? (Bytes.ofString "XBT") s with
    | some rest => Bytes.ofString "BTC" ++ rest
    | none => s
  if venue == Bytes.ofString "binance" || venue == Bytes.ofString "bybit" then
    Bytes.replaceFirst (Bytes.ofString "1000USDT") (Bytes.ofString "USDT")
      (Bytes.dropPrefix (Bytes.ofString "1000") sym)
  else if venue == Bytes.ofString "kucoin" then
    xbt (Bytes.dropSuffix (Bytes.ofString "M") (List.filter (· != 0x2D) sym))
  else if venue == Bytes.ofString "okx" then Bytes.dropSuffix (Bytes.ofString "-SWAP") sym
  else if venue == Bytes.ofString "kraken" then xbt sym
  else sym

/-- Maps an exchange contract symbol onto the USD quote. -/
def ofExchangeSymbol (exchange sym : Bytes) : Except Failure Pair :=
  let normalized := normalizeSymbol exchange sym
  match ofStableSymbol? normalized with
  | some p => .ok p
  | none => .error (.coded .invalidPair
      s!"{Utf8.toStringLossy exchange} symbol {Bytes.quoted normalized} has no stable quote")

/-- The cross pair `A/B` of `A/Q` and `B/Q`; the two quotes must agree. -/
def routed (a b : Pair) : Except Failure Pair :=
  if a.quote == b.quote then .ok ⟨a.base, b.base⟩
  else .error (.coded .invalidPair
    s!"cannot route {Utf8.toStringLossy a.render} through {Utf8.toStringLossy b.render}: quotes differ")

end Pair

end MarketData
