import MarketData.Failure
import MarketData.Text.Bytes

/-!
The protobuf wire format.

A message is a sequence of fields; each opens with a tag, the varint `number · 8 + type`, and the
type says how its value is laid out: a varint (0), eight little-endian bytes (1), a varint length
and that many bytes (2), a group closed by a matching end tag (3 and 4), or four little-endian
bytes (5). A varint holds seven bits per byte, least significant first, the high bit set on every
byte but the last; it has at most ten bytes, and the tenth may only be 0 or 1.

Reading refuses a truncated value, a field number of 0 or above 2^31 - 1, an over-long varint,
the reserved types 6 and 7, an end tag with no group open or closing another group, and groups
nested more than 10001 levels deep.
-/

namespace MarketData.Protobuf

/-- Why a message could not be split into fields. -/
inductive WireError where
  /-- The input ended inside a field. -/
  | truncated
  /-- A tag named field 0 or a number too large. -/
  | fieldNumber
  /-- A varint ran past ten bytes. -/
  | overflow
  /-- A tag had wire type 6 or 7. -/
  | reserved
  /-- An end tag had no group to close, or closed another one. -/
  | endGroup
  /-- Groups were nested too deep. -/
  | recursion
  deriving DecidableEq, Repr

/-- The text of a wire error; the library prefix `proto:` is followed by a no-break space. -/
def WireError.text : WireError → String
  | .truncated => "unexpected EOF"
  | .fieldNumber => "proto:\u00a0invalid field number"
  | .overflow => "proto:\u00a0variable length integer overflow"
  | .reserved => "proto:\u00a0cannot parse reserved wire type"
  | .endGroup => "proto:\u00a0mismatching end group marker"
  | .recursion => "proto:\u00a0exceeded maximum recursion depth"

/-- The value of one field. -/
inductive Payload where
  /-- Wire type 0. -/
  | varint (v : UInt64)
  /-- Wire type 1. -/
  | fixed64 (v : UInt64)
  /-- Wire type 2. -/
  | bytes (b : Bytes)
  /-- Wire type 3: a group, whose content is not kept. -/
  | group
  /-- Wire type 5. -/
  | fixed32 (v : UInt32)
  deriving DecidableEq, Repr

/-- The wire type of a payload. -/
def Payload.wireType : Payload → Nat
  | .varint _ => 0
  | .fixed64 _ => 1
  | .bytes _ => 2
  | .group => 3
  | .fixed32 _ => 5

/-- One field of a message. -/
structure Field where
  /-- The field number. -/
  num : Nat
  /-- The value. -/
  payload : Payload
  deriving DecidableEq, Repr

/-! ## Writing -/

/-- The varint of a natural number below 2^64. -/
def varintOfNat (n : Nat) : Bytes :=
  if h : n < 128 then [n.toUInt8]
  else (n % 128 + 128).toUInt8 :: varintOfNat (n / 128)
termination_by n
decreasing_by omega

/-- The varint of a word. -/
def varint (v : UInt64) : Bytes := varintOfNat v.toNat

/-- The tag of a field. -/
def tag (num wireType : Nat) : Bytes := varintOfNat (num * 8 + wireType)

/-- A varint field. -/
def varintField (num : Nat) (v : UInt64) : Bytes := tag num 0 ++ varint v

/-- A fixed 64-bit field. -/
def fixed64Field (num : Nat) (v : UInt64) : Bytes := tag num 1 ++ Bytes.littleEndian 8 v.toNat

/-- A length-delimited field. -/
def bytesField (num : Nat) (b : Bytes) : Bytes := tag num 2 ++ varintOfNat b.length ++ b

/-! ## Reading -/

/-- Reads the rest of a varint whose earlier bytes gave `acc`; `index` counts the bytes read. -/
def readVarintFrom (acc : Nat) (index : Nat) : Nat → Bytes → Except WireError (UInt64 × Bytes)
  | 0, _ => .error .overflow
  | _ + 1, [] => .error .truncated
  | fuel + 1, b :: rest =>
    if index = 9 then
      if b < 2 then .ok ((acc + b.toNat * Nat.pow 2 63).toUInt64, rest) else .error .overflow
    else if b < 0x80 then .ok ((acc + b.toNat * Nat.pow 2 (7 * index)).toUInt64, rest)
    else readVarintFrom (acc + (b.toNat - 0x80) * Nat.pow 2 (7 * index)) (index + 1) fuel rest

/-- Reads a varint from the front of the input. -/
def readVarint (b : Bytes) : Except WireError (UInt64 × Bytes) := readVarintFrom 0 0 10 b

/-- Reads a tag: the field number and the wire type. -/
def readTag (b : Bytes) : Except WireError (Nat × Nat × Bytes) := do
  let (v, rest) ← readVarint b
  let num := v.toNat / 8
  if num = 0 || num > Nat.pow 2 31 - 1 then throw .fieldNumber
  pure (num, v.toNat % 8, rest)

/-- Takes `n` bytes from the front of the input. -/
def takeExactly (n : Nat) (b : Bytes) : Except WireError (Bytes × Bytes) :=
  if n ≤ b.length then .ok (b.take n, b.drop n) else .error .truncated

/-- Reads the value of a field of number `num` and wire type `wireType`; `depth` is how many
more groups may open, `fuel` bounds the walk through nested groups. -/
def readValue (fuel depth num wireType : Nat) (b : Bytes) : Except WireError (Payload × Bytes) :=
  match fuel with
  | 0 => .error .truncated
  | fuel + 1 =>
    match wireType with
    | 0 => do
      let (v, rest) ← readVarint b
      pure (.varint v, rest)
    | 1 => do
      let (w, rest) ← takeExactly 8 b
      pure (.fixed64 (Bytes.readLittleEndian w).toUInt64, rest)
    | 2 => do
      let (len, rest) ← readVarint b
      let (content, rest) ← takeExactly len.toNat rest
      pure (.bytes content, rest)
    | 3 =>
      if depth = 0 then .error .recursion
      else skipGroup fuel (depth - 1) num b
    | 4 => .error .endGroup
    | 5 => do
      let (w, rest) ← takeExactly 4 b
      pure (.fixed32 (Bytes.readLittleEndian w).toUInt32, rest)
    | _ => .error .reserved
where
  /-- Skips the fields of a group up to its end tag, which must close field `num`. -/
  skipGroup (fuel depth num : Nat) (b : Bytes) : Except WireError (Payload × Bytes) :=
    match fuel with
    | 0 => .error .truncated
    | fuel + 1 => do
      let (num2, type2, rest) ← readTag b
      if type2 = 4 then
        if num2 = num then pure (.group, rest) else throw .endGroup
      else
        let (_, rest) ← readValue fuel depth num2 type2 rest
        skipGroup fuel depth num rest

/-- The failure of a message that is not well formed. -/
def malformed (reason : String) : Failure := .coded .malformedPayload ("protobuf: " ++ reason)

/-- Reads one field from the front of a message. -/
def readField (b : Bytes) : Except Failure (Field × Bytes) :=
  match readTag b with
  | .error e => .error (malformed e.text)
  | .ok (num, wireType, rest) =>
    match readValue (rest.length + 1) 10001 num wireType rest with
    | .error e => .error (malformed s!"field {num}: {e.text}")
    | .ok (payload, rest) => .ok (⟨num, payload⟩, rest)

/-- Visits the fields of a message in order, threading a state; the first failure, of reading or
of a visit, ends the walk. -/
def foldFields {σ : Type} (visit : σ → Field → Except Failure σ) (init : σ) (b : Bytes) :
    Except Failure σ :=
  go (b.length + 1) init b
where
  /-- The walk, bounded by the length of the message. -/
  go : Nat → σ → Bytes → Except Failure σ
    | 0, s, _ => .ok s
    | _ + 1, s, [] => .ok s
    | fuel + 1, s, b => do
      let (f, rest) ← readField b
      let s ← visit s f
      go fuel s rest

/-- The failure for a field of the wrong wire type. -/
def wrongType (f : Field) (want : Nat) : Failure :=
  malformed s!"field {f.num} has wire type {f.payload.wireType}, want {want}"

/-- The varint of a field of type 0. -/
def Field.varint (f : Field) : Except Failure UInt64 :=
  match f.payload with
  | .varint v => .ok v
  | _ => .error (wrongType f 0)

/-- The word of a field of type 1. -/
def Field.fixed64 (f : Field) : Except Failure UInt64 :=
  match f.payload with
  | .fixed64 v => .ok v
  | _ => .error (wrongType f 1)

/-- The content of a field of type 2. -/
def Field.bytes (f : Field) : Except Failure Bytes :=
  match f.payload with
  | .bytes b => .ok b
  | _ => .error (wrongType f 2)

theorem varintOfNat_small {n : Nat} (h : n < 128) : varintOfNat n = [n.toUInt8] := by
  rw [varintOfNat, dif_pos h]

end MarketData.Protobuf
