import MarketData.Market.Entity
import MarketData.Union

/-!
Entities in borsh.

An entity is the concatenation of its fields in layout order, with no tags. Text is a 32-bit
little-endian length and the bytes; integers and words are eight little-endian bytes, an amount
its low then its high word, a float its bits; an ordinal is one byte, so ordinals above 255
cannot be written; a float cannot be NaN. A pair, a depth reading, a book and a header are their
fields in order. A side is a 32-bit count and each level's price and quantity. An optional field
is a one-byte arm, 0 or 1, followed by the value for 1.

Reading takes the same fields in order and must use up the input. The first failure wins. A
length above 2^31 - 1 is refused, a count of levels is refused when the levels could not fit in
what remains, a side of no levels reads as not supplied, and an arm other than 0 or 1 fails
with `malformedUnion`.
-/

namespace MarketData.Borsh

/-! ## Writing -/

/-- The failure of a value that cannot be written. -/
def unwritable (reason : String) : Failure := .coded .rangeExceeded ("borsh: " ++ reason)

/-- A 32-bit length. -/
def length (n : Nat) : Bytes := Bytes.littleEndian 4 n

/-- Text: its length and its bytes. -/
def text (b : Bytes) : Bytes := length b.length ++ b

/-- A float; NaN cannot be written. -/
def float (x : F64) : Except Failure Bytes :=
  if x.isNaN then .error (unwritable "NaN float value") else .ok (Bytes.littleEndian 8 x.bits.toNat)

/-- A word. -/
def word (v : UInt64) : Bytes := Bytes.littleEndian 8 v.toNat

/-- A side: the count of its levels, then each level. -/
def levels (l : Levels) : Except Failure Bytes := do
  let parts ← l.toList.mapM fun x => do pure ((← float x.price) ++ (← float x.quantity))
  pure (length l.toList.length ++ parts.flatten)

/-- The bytes of a value of a shape. -/
def encodeValue : (s : Shape) → s.Value → Except Failure Bytes
  | .text, v => .ok (text v)
  | .int, v => .ok (word v.toUInt64)
  | .word, v => .ok (word v)
  | .float, v => float v
  | .amount, v => .ok (word v.low ++ word v.high)
  | .ordinal _, v =>
    if v.val.toNat < 256 then .ok [v.val.toUInt8]
    else .error (unwritable s!"enum ordinal {v.val.toNat} does not fit in u8")
  | .pair, v => .ok (text v.base ++ text v.quote)
  | .depth, v => do pure ((← float v.percentage) ++ (← float v.bid) ++ (← float v.ask))
  | .book, v => do pure (word v.updateId ++ (← levels v.bids) ++ (← levels v.asks))
  | .header, v => .ok (word v.timestamp.toUInt64 ++ text v.source ++ text v.publisher)
  | .levels, v => levels v
  | .optional _, none => .ok [0]
  | .optional s, some v => do pure ([1] ++ (← encodeValue s v))

/-- The bytes of a value under a layout. -/
def encodeSlots {α : Type} (layout : List (Slot α)) (a : α) : Except Failure Bytes := do
  let parts ← layout.mapM fun slot => encodeValue slot.shape (slot.get a)
  pure parts.flatten

/-- The bytes of an entity. -/
def encode (e : Entity) : Except Failure Bytes := encodeSlots e.kind.layout e.value

/-! ## Reading -/

/-- A reader of the front of the input. -/
abbrev Reader := StateT Bytes (Except Failure)

/-- The failure of input that cannot be read. -/
def unreadable (reason : String) : Failure := .coded .malformedPayload ("borsh: " ++ reason)

/-- Takes `n` bytes, or fails with the given reason. -/
def take (n : Nat) (reason : Nat → String) : Reader Bytes := do
  let b ← get
  if n ≤ b.length then
    set (b.drop n)
    pure (b.take n)
  else throw (unreadable (reason b.length))

/-- Reads a byte. -/
def readByte : Reader UInt8 := do
  let b ← take 1 fun _ => "required [1] byte, remaining [0]"
  pure (b.headD 0)

/-- Reads a word. -/
def readWord : Reader UInt64 := do
  let b ← take 8 fun r => s!"decode: uint64 required [8] bytes, remaining [{r}]"
  pure (Bytes.readLittleEndian b).toUInt64

/-- Reads a float; NaN is refused. -/
def readFloat : Reader F64 := do
  let b ← take 8 fun r => s!"float64 required [8] bytes, remaining [{r}]"
  let x : F64 := ⟨(Bytes.readLittleEndian b).toUInt64⟩
  if x.isNaN then throw (unreadable "NaN for float not allowed") else pure x

/-- Reads a 32-bit length; one above 2^31 - 1 is refused. -/
def readLength : Reader Nat := do
  let b ← take 4 fun r => s!"uint32 required [4] bytes, remaining [{r}]"
  let n := Bytes.readLittleEndian b
  if n > 0x7FFFFFFF then throw (unreadable "unexpected EOF") else pure n

/-- Reads text. -/
def readText : Reader Bytes := do
  let n ← readLength
  take n fun r => s!"byte array: varlen={n}, missing {n - r} bytes"

/-- Reads `n` levels. -/
def readLevelList : Nat → Reader (List Level)
  | 0 => pure []
  | n + 1 => do
    let price ← readFloat
    let quantity ← readFloat
    let rest ← readLevelList n
    pure (⟨price, quantity⟩ :: rest)

/-- Reads a side; the count must fit in what remains, and no levels read as not supplied. -/
def readLevels : Reader Levels := do
  let n ← readLength
  let remaining := (← get).length
  if n * 16 > remaining then
    throw (unreadable s!"{n} elements exceed the {remaining} remaining bytes")
  if n = 0 then pure none else pure (some (← readLevelList n))

/-- Reads a value of a shape. -/
def decodeValue : (s : Shape) → Reader s.Value
  | .text => readText
  | .int => do pure (← readWord).toInt64
  | .word => readWord
  | .float => readFloat
  | .amount => do
    let low ← readWord
    let high ← readWord
    pure ⟨low, high⟩
  | .ordinal _ => do pure ⟨(← readByte).toUInt32⟩
  | .pair => do
    let base ← readText
    let quote ← readText
    pure ⟨base, quote⟩
  | .depth => do
    let percentage ← readFloat
    let bid ← readFloat
    let ask ← readFloat
    pure ⟨percentage, bid, ask⟩
  | .book => do
    let updateId ← readWord
    let bids ← readLevels
    let asks ← readLevels
    pure ⟨updateId, bids, asks⟩
  | .header => do
    let timestamp ← readWord
    let source ← readText
    let publisher ← readText
    pure ⟨timestamp.toInt64, source, publisher⟩
  | .levels => readLevels
  | .optional s => do
    let arm ← readByte
    match Arm.ofWire arm.toNat with
    | .error f => throw f
    | .ok .absent => pure none
    | .ok .present => pure (some (← decodeValue s))

/-- Reads a value under a layout, starting from a given value. -/
def decodeSlots {α : Type} (layout : List (Slot α)) (init : α) : Reader α :=
  layout.foldlM (fun a slot => do pure (slot.set (← decodeValue slot.shape) a)) init

/-- Reads an entity of a kind; the input must be used up. -/
def decode (k : EntityKind) (b : Bytes) : Except Failure k.Carrier := do
  let (e, rest) ← (decodeSlots k.layout k.empty).run b
  if rest.isEmpty then pure e else throw (unreadable s!"{rest.length} trailing bytes")

end MarketData.Borsh
