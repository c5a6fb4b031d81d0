import MarketData.Failure
import MarketData.Json.Document
import MarketData.Json.Lexer
import MarketData.Number.Integer
import MarketData.Text.Blank
import MarketData.Text.Case
import MarketData.Text.Quoted

/-!
Enumerations.

An enumeration maps ordinals `0, 1, …` to names, and its ordinals are part of the wire
contract. A value is any 32-bit ordinal: an ordinal past the last name is not an error but an
unknown member, written `unknown(N)`, so that a reader keeps working when a newer producer adds
members. Only `check` (used by writers and conversions) refuses unknown members.

Names are read ignoring case and surrounding blanks, and `unknown(N)` is read back as ordinal
`N`. In JSON a known member is its name in quotes and an unknown one its bare ordinal; both
forms are read back.
-/

namespace MarketData

/-- The enumerations of the data model. -/
inductive Enumeration where
  /-- Spot or perpetual instruments. -/
  | instrumentType
  /-- The chains prices are reported on. -/
  | chain
  /-- Whether an order book message is an update or a snapshot. -/
  | orderbookUpdateType
  /-- The side of a trade. -/
  | tradeSide
  deriving DecidableEq, Repr

namespace Enumeration

/-- The name of the enumeration, used in messages. -/
def kind : Enumeration → String
  | .instrumentType => "InstrumentType"
  | .chain => "Chain"
  | .orderbookUpdateType => "OrderbookUpdateType"
  | .tradeSide => "TradeSide"

/-- The names of the members, by ordinal. -/
def names : Enumeration → List String
  | .instrumentType => ["spot", "perp"]
  | .chain => ["starknet", "solana", "sui", "aptos", "ethereum", "base", "arbitrum", "optimism",
      "zksync", "polygon", "bnb", "avalanche", "gnosis", "worldchain"]
  | .orderbookUpdateType => ["update", "snapshot"]
  | .tradeSide => ["buy", "sell"]

/-- The enumeration with a given name. -/
def ofKind? (s : String) : Option Enumeration :=
  [Enumeration.instrumentType, .chain, .orderbookUpdateType, .tradeSide].find? (·.kind == s)

end Enumeration

/-- A wire number as an ordinal; numbers past 32 bits fail with `rangeExceeded`. -/
def ordinalOfWire (raw : Nat) : Except Failure UInt32 :=
  if raw < Nat.pow 2 32 then .ok raw.toUInt32
  else .error (.coded .rangeExceeded s!"enum ordinal {raw} exceeds 4294967295")

/-- A registry of names: ordinal `i` is named `names[i]`, and `kind` names the enumeration in
messages. Names are matched by their lowercase form. -/
structure Registry where
  /-- The name of the enumeration. -/
  kind : String
  /-- The names of the members, by ordinal. -/
  names : List String

namespace Registry

variable (r : Registry)

/-- The name of an ordinal, if it has one. -/
def name? (v : UInt32) : Option String := r.names[v.toNat]?

/-- Whether an ordinal has a name. -/
def known (v : UInt32) : Bool := v.toNat < r.names.length

/-- The name of an ordinal, or `unknown(N)`. -/
def render (v : UInt32) : String := (r.name? v).getD s!"unknown({v.toNat})"

/-- Refuses an ordinal past the registry. -/
def check (v : UInt32) : Except Failure Unit :=
  if r.known v then .ok ()
  else .error (.coded .unknownEnumerant
    s!"{r.kind}: ordinal {v.toNat} is newer than this registry ({r.names.length} members)")

/-- The JSON text of an ordinal: its name as a string literal, or the bare ordinal when it has
none. -/
def jsonText (v : UInt32) : String :=
  match r.name? v with
  | some n => Json.quote (Bytes.ofString n)
  | none => toString v.toNat

/-- A wire number as an ordinal; the failure names the registry. -/
def fromWire (raw : Nat) : Except Failure UInt32 :=
  match ordinalOfWire raw with
  | .ok v => .ok v
  | .error f => .error (.within r.kind f)

/-- The ordinal of the name whose lowercase bytes are the key. -/
def indexOf? (key : Bytes) : Option Nat :=
  r.names.findIdx? fun n => (Bytes.ofString n).toLower == key

/-- Reads an ordinal from its name, ignoring case and surrounding blanks; `unknown(N)` reads as
ordinal `N`. -/
def parse (text : Bytes) : Except Failure UInt32 :=
  let key := text.trimBlank.toLower
  let missing : Except Failure UInt32 :=
    .error (.coded .unknownEnumerant s!"{r.kind}: no member named {text.quoted}")
  match r.indexOf? key with
  | some i => .ok i.toUInt32
  | none =>
    let pre := Bytes.ofString "unknown("
    if pre.isPrefixOf key && key.getLast? == some 0x29 then
      match Numeral.readWord? ((key.drop pre.length).dropLast) with
      | some raw => r.fromWire raw.toNat
      | none => missing
    else missing

/-- Reads an ordinal from JSON text: a string literal is read as a name, anything else must be a
decimal ordinal. -/
def readJson (data : Bytes) : Except Failure UInt32 :=
  let trimmed := data.trimBlank
  if trimmed.head? == some 0x22 then
    match Json.stringValue? data with
    | some name => r.parse name
    | none => .error (.coded .malformedPayload r.kind)
  else
    match Numeral.readWord? trimmed with
    | some raw => r.fromWire raw.toNat
    | none =>
      .error (.coded .malformedPayload s!"{r.kind}: cannot decode {Utf8.toStringLossy trimmed}")

end Registry

/-- The registry of an enumeration. -/
def Enumeration.registry (e : Enumeration) : Registry := ⟨e.kind, e.names⟩

/-- A member of an enumeration, known or not, by its 32-bit ordinal. -/
structure Ordinal (e : Enumeration) where
  /-- The wire ordinal. -/
  val : UInt32
  deriving DecidableEq, Repr, Inhabited

/-- The type of an instrument. -/
abbrev InstrumentType := Ordinal .instrumentType
/-- A chain. -/
abbrev Chain := Ordinal .chain
/-- The type of an order book message. -/
abbrev OrderbookUpdateType := Ordinal .orderbookUpdateType
/-- The side of a trade. -/
abbrev TradeSide := Ordinal .tradeSide

namespace Ordinal

variable {e : Enumeration}

/-- The name of a known member. -/
def name? (o : Ordinal e) : Option String := e.registry.name? o.val

/-- Whether the member is in the registry. -/
def known (o : Ordinal e) : Bool := e.registry.known o.val

/-- The name of the member, or `unknown(N)`. -/
def render (o : Ordinal e) : String := e.registry.render o.val

/-- Refuses a member past the registry. -/
def check (o : Ordinal e) : Except Failure Unit := e.registry.check o.val

/-- The JSON text of a member: its name in quotes, or the bare ordinal when unknown. -/
def jsonText (o : Ordinal e) : String := e.registry.jsonText o.val

theorem known_iff (o : Ordinal e) : o.known = true ↔ o.val.toNat < e.names.length := by
  unfold known Registry.known Enumeration.registry
  exact decide_eq_true_iff

end Ordinal

namespace Enumeration

/-- A wire number as a member; the failure names the enumeration. -/
def fromWire (e : Enumeration) (raw : Nat) : Except Failure (Ordinal e) :=
  (e.registry.fromWire raw).map Ordinal.mk

/-- Reads a member from its name, ignoring case and surrounding blanks; `unknown(N)` reads as
ordinal `N`. -/
def parse (e : Enumeration) (text : Bytes) : Except Failure (Ordinal e) :=
  (e.registry.parse text).map Ordinal.mk

/-- Reads a member from JSON text: a string literal is read as a name, anything else must be a
decimal ordinal. -/
def readJson (e : Enumeration) (data : Bytes) : Except Failure (Ordinal e) :=
  (e.registry.readJson data).map Ordinal.mk

end Enumeration

/-- Whether an instrument type is spot trading. -/
def InstrumentType.isSpot (t : InstrumentType) : Bool := t.val == 0

/-- Whether an instrument type is a perpetual contract. -/
def InstrumentType.isPerp (t : InstrumentType) : Bool := t.val == 1

/-- The identifier of an instrument type: its ordinal plus one. -/
def InstrumentType.id (t : InstrumentType) : Nat := t.val.toNat + 1

/-- The instrument type with an identifier; 0 is not assigned and unknown types are refused. -/
def InstrumentType.ofId (id : Nat) : Except Failure InstrumentType := do
  if id = 0 then throw (.coded .unknownEnumerant "InstrumentType: id 0 is not assigned")
  let t ← Enumeration.instrumentType.fromWire (id - 1)
  t.check
  pure t

/-- The chain identifiers of the EVM chains. -/
def evmChainIds : List (Nat × Nat) :=
  [(4, 1), (7, 10), (10, 56), (12, 100), (9, 137), (8, 324), (13, 480), (5, 8453), (6, 42161),
    (11, 43114)]

/-- The EVM chain identifier of a chain, if it is an EVM chain. -/
def Chain.evmId? (c : Chain) : Option Nat := (evmChainIds.find? (·.1 == c.val.toNat)).map (·.2)

/-- Whether a chain is an EVM chain. -/
def Chain.isEvm (c : Chain) : Bool := c.evmId?.isSome

/-- The chain with an EVM chain identifier. -/
def Chain.ofEvmId? (id : Nat) : Option Chain :=
  (evmChainIds.find? (·.2 == id)).map fun p => ⟨p.1.toUInt32⟩

/-- The other side of a trade; an unknown side stays as it is. -/
def TradeSide.opposite (s : TradeSide) : TradeSide :=
  if s.val = 0 then ⟨1⟩ else if s.val = 1 then ⟨0⟩ else s

theorem TradeSide.opposite_opposite (s : TradeSide) : s.opposite.opposite = s := by
  obtain ⟨v⟩ := s
  unfold TradeSide.opposite
  by_cases h0 : v = 0
  · subst h0; rfl
  · by_cases h1 : v = 1
    · subst h1; rfl
    · simp [h0, h1]

end MarketData
