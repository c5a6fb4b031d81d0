import MarketData.Protobuf.Wire
import MarketData.Market.Entity

/-!
Entities as protobuf messages.

An entity is the message of its layout: each field in identifier order, every field written even
when it is zero or empty. Text is length delimited; integers, words and ordinals are varints,
a signed integer by its two's complement bits and an ordinal sign-extended from 32 bits; a float
is its bits in a fixed 64-bit field. An amount, a pair, a depth reading, a book and a header are
nested messages of their own fields (numbered from 1 in the order they are declared); each level
of a side is a nested message of its own, repeated under the side's number. An optional field
writes an empty message under its void arm's number, or its value under the next number.

Reading starts from the empty entity and takes the fields as they come: unknown numbers are
skipped, a nested message replaces the earlier one, levels are appended, and of the two arms of
an optional field the last one read wins. A field of a known number with the wrong wire type
fails.
-/

namespace MarketData.Protobuf

/-- The varint of a signed integer: its two's complement bits. -/
def intWord (i : Int64) : UInt64 := i.toUInt64

/-- The varint of an ordinal: its 32 bits sign-extended to 64. -/
def ordinalWord (v : UInt32) : UInt64 :=
  if v.toNat < Nat.pow 2 31 then v.toUInt64 else (v.toNat + (Nat.pow 2 64 - Nat.pow 2 32)).toUInt64

/-! ## Writing -/

/-- The message of a level. -/
def levelMessage (l : Level) : Bytes := fixed64Field 1 l.price.bits ++ fixed64Field 2 l.quantity.bits

/-- The levels of a side, each a message under the given number. -/
def levelFields (num : Nat) (l : Levels) : Bytes :=
  l.toList.flatMap fun x => bytesField num (levelMessage x)

/-- The message of a pair. -/
def pairMessage (p : Pair) : Bytes := bytesField 1 p.base ++ bytesField 2 p.quote

/-- The message of an amount: its low and high words. -/
def amountMessage (u : UInt128) : Bytes := varintField 1 u.low ++ varintField 2 u.high

/-- The message of a depth reading. -/
def depthMessage (d : DepthLevel) : Bytes :=
  fixed64Field 1 d.percentage.bits ++ fixed64Field 2 d.bid.bits ++ fixed64Field 3 d.ask.bits

/-- The message of a book. -/
def bookMessage (b : Orderbook) : Bytes :=
  varintField 1 b.updateId ++ levelFields 2 b.bids ++ levelFields 3 b.asks

/-- The message of a header. -/
def headerMessage (h : Header) : Bytes :=
  varintField 1 (intWord h.timestamp) ++ bytesField 2 h.source ++ bytesField 3 h.publisher

/-- The field or fields of a value of a shape under a number. -/
def encodeValue (num : Nat) : (s : Shape) → s.Value → Bytes
  | .text, v => bytesField num v
  | .int, v => varintField num (intWord v)
  | .word, v => varintField num v
  | .float, v => fixed64Field num v.bits
  | .amount, v => bytesField num (amountMessage v)
  | .ordinal _, v => varintField num (ordinalWord v.val)
  | .pair, v => bytesField num (pairMessage v)
  | .depth, v => bytesField num (depthMessage v)
  | .book, v => bytesField num (bookMessage v)
  | .header, v => bytesField num (headerMessage v)
  | .levels, v => levelFields num v
  | .optional _, none => bytesField num []
  | .optional s, some v => encodeValue (num + 1) s v

/-- The message of a value under a layout. -/
def encodeSlots {α : Type} (layout : List (Slot α)) (a : α) : Bytes :=
  layout.flatMap fun slot => encodeValue slot.id slot.shape (slot.get a)

/-- The message of an entity. -/
def encode (e : Entity) : Bytes := encodeSlots e.kind.layout e.value

/-! ## Reading -/

/-- The float of a fixed 64-bit field. -/
def Field.float (f : Field) : Except Failure F64 := f.fixed64.map F64.mk

/-- The nested message of a field. -/
def Field.nested {σ : Type} (f : Field) (init : σ) (visit : σ → Field → Except Failure σ) :
    Except Failure σ := do
  foldFields visit init (← f.bytes)

/-- Reads a level. -/
def readLevel (f : Field) : Except Failure Level :=
  f.nested {} fun l g => match g.num with
    | 1 => return { l with price := ← g.float }
    | 2 => return { l with quantity := ← g.float }
    | _ => pure l

/-- Reads a pair. -/
def readPair (f : Field) : Except Failure Pair :=
  f.nested {} fun p g => match g.num with
    | 1 => return { p with base := ← g.bytes }
    | 2 => return { p with quote := ← g.bytes }
    | _ => pure p

/-- Reads an amount. -/
def readAmount (f : Field) : Except Failure UInt128 :=
  f.nested UInt128.zero fun u g => match g.num with
    | 1 => return { u with low := ← g.varint }
    | 2 => return { u with high := ← g.varint }
    | _ => pure u

/-- Reads a depth reading. -/
def readDepth (f : Field) : Except Failure DepthLevel :=
  f.nested {} fun d g => match g.num with
    | 1 => return { d with percentage := ← g.float }
    | 2 => return { d with bid := ← g.float }
    | 3 => return { d with ask := ← g.float }
    | _ => pure d

/-- Appends a level to a side. -/
def appendLevel (side : Levels) (l : Level) : Levels := some (side.toList ++ [l])

/-- Reads a book; its levels are appended in the order read. -/
def readBook (f : Field) : Except Failure Orderbook :=
  f.nested {} fun b g => match g.num with
    | 1 => return { b with updateId := ← g.varint }
    | 2 => return { b with bids := appendLevel b.bids (← readLevel g) }
    | 3 => return { b with asks := appendLevel b.asks (← readLevel g) }
    | _ => pure b

/-- Reads a header. -/
def readHeader (f : Field) : Except Failure Header :=
  f.nested {} fun h g => match g.num with
    | 1 => return { h with timestamp := (← g.varint).toInt64 }
    | 2 => return { h with source := ← g.bytes }
    | 3 => return { h with publisher := ← g.bytes }
    | _ => pure h

/-- Reads the void arm of an optional field: an empty message, whose fields are still checked. -/
def readVoid (f : Field) : Except Failure Unit := f.nested () fun _ _ => pure ()

/-- Reads the value of a shape from one field. -/
def decodeValue (f : Field) : (s : Shape) → Except Failure s.Value
  | .text => f.bytes
  | .int => f.varint.map UInt64.toInt64
  | .word => f.varint
  | .float => f.float
  | .amount => readAmount f
  | .ordinal _ => f.varint.map fun v => ⟨v.toUInt32⟩
  | .pair => readPair f
  | .depth => readDepth f
  | .book => readBook f
  | .header => readHeader f
  | .levels => (readLevel f).map fun l => some [l]
  | .optional s => (decodeValue f s).map some

/-- Takes one field into a value under a slot: a field of another number leaves it as it is. -/
def absorb {α : Type} (f : Field) (a : α) : Slot α → Except Failure α
  | ⟨id, _, .optional s, _, set⟩ =>
    if f.num = id then do readVoid f; pure (set none a)
    else if f.num = id + 1 then do let v ← decodeValue f s; pure (set (some v) a)
    else pure a
  | ⟨id, _, .levels, get, set⟩ =>
    if f.num = id then do let l ← readLevel f; pure (set (appendLevel (get a) l) a)
    else pure a
  | ⟨id, _, s, _, set⟩ =>
    if f.num = id then do let v ← decodeValue f s; pure (set v a) else pure a

/-- Reads a message under a layout, starting from a given value. -/
def decodeSlots {α : Type} (layout : List (Slot α)) (init : α) (b : Bytes) : Except Failure α :=
  foldFields (fun a f => layout.foldlM (fun a slot => absorb f a slot) a) init b

/-- Reads an entity of a kind. -/
def decode (k : EntityKind) (b : Bytes) : Except Failure k.Carrier :=
  decodeSlots k.layout k.empty b

theorem ordinalWord_small {v : UInt32} (h : v.toNat < Nat.pow 2 31) : ordinalWord v = v.toUInt64 := by
  unfold ordinalWord
  rw [if_pos h]

end MarketData.Protobuf
