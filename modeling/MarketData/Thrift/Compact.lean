import MarketData.Text.Bytes

/-!
The Thrift compact protocol, as the metadata of columnar files is written in it.

A value is read into a tree that keeps the wire type of every integer and collection, because a
reader that expects one type skips a field written with another. Integers are zigzag varints
(seven bits per byte, least significant first; bits past 64 are lost), a byte stands for
itself, a double is eight little-endian bytes, and a binary is a varint length and its bytes.

A struct is a run of fields closed by a header whose low four bits are zero. A field header
carries the type in its low four bits and, in its high four bits, the step from the previous
field's identifier; a step of zero means the identifier follows as a zigzag varint. Booleans
live in the type of their header. A list or set header holds the size in its high four bits, or
15 and then a varint size, and the element type in its low four bits; a map has a varint size
and, unless empty, one byte of key and value types.
-/

namespace MarketData.Thrift

/-- A value read from the compact protocol. -/
inductive Value where
  /-- A boolean. -/
  | bool (b : Bool)
  /-- An integer, with its compact type: 3 for a byte, 4, 5 and 6 for 16, 32 and 64 bits. -/
  | int (type : Nat) (n : Int)
  /-- A double, as its bits. -/
  | double (bits : UInt64)
  /-- A binary or string. -/
  | binary (b : Bytes)
  /-- A list (type 9) or set (type 10). -/
  | list (type : Nat) (items : List Value)
  /-- A map. -/
  | map (entries : List (Value × Value))
  /-- A struct: its fields by identifier, in the order read. -/
  | struct (fields : List (Int × Value))
  deriving Repr, Inhabited

/-- A reader of the front of the input; `none` when the input is not a value. -/
abbrev Reader := StateT Bytes Option

/-- Fails. -/
def refuse {α : Type} : Reader α := fun _ => none

/-- One byte. -/
def byte : Reader UInt8 := do
  match ← get with
  | b :: rest => set rest; pure b
  | [] => refuse

/-- A number of bytes. -/
def takeBytes (n : Nat) : Reader Bytes := do
  let input ← get
  if input.length < n then refuse
  else set (input.drop n); pure (input.take n)

/-- The varint at the front of some bytes, modulo 2^64, and what follows it. -/
def varintOf : Bytes → Option (Nat × Bytes)
  | [] => none
  | b :: rest =>
    if b < 0x80 then some (b.toNat, rest)
    else (varintOf rest).map fun (v, after) => ((b.toNat % 128 + 128 * v) % Nat.pow 2 64, after)

/-- A varint. -/
def varint : Reader Nat := do
  match varintOf (← get) with
  | some (v, rest) => set rest; pure v
  | none => refuse

/-- The signed number of the low `width` bits of a zigzag encoding. -/
def unzigzag (width : Nat) (v : Nat) : Int :=
  let w := v % Nat.pow 2 width
  if w % 2 = 0 then (w / 2 : Nat) else -((w / 2 : Nat) : Int) - 1

/-- A number as a two's-complement integer of `width` bits. -/
def signed (width : Nat) (n : Int) : Int :=
  let w := (n % (Nat.pow 2 width : Nat) : Int)
  if w < Int.pow 2 (width - 1) then w else w - Int.pow 2 width

/-- A zigzag integer of a width. -/
def zigzag (width : Nat) : Reader Int := do
  pure (unzigzag width (← varint))

/-- A varint read as a signed 32-bit size; negative sizes are refused. -/
def size : Reader Nat := do
  let n := signed 32 (← varint)
  if n < 0 then refuse else pure n.toNat

/-- Whether a compact type number names a type. -/
def knownType (t : Nat) : Bool := 1 ≤ t && t ≤ 12

mutual

/-- A value of a compact type; `fuel` bounds the nesting. -/
def value : Nat → Nat → Reader Value
  | 0, _ => refuse
  | fuel + 1, t =>
    if t = 1 || t = 2 then do
      pure (.bool ((← byte) == 1))
    else if t = 3 then do
      pure (.int 3 (signed 8 (← byte).toNat))
    else if t = 4 then do
      pure (.int 4 (signed 16 (← zigzag 32)))
    else if t = 5 then do
      pure (.int 5 (← zigzag 32))
    else if t = 6 then do
      pure (.int 6 (← zigzag 64))
    else if t = 7 then do
      pure (.double (Bytes.readLittleEndian (← takeBytes 8)).toUInt64)
    else if t = 8 then do
      pure (.binary (← takeBytes (← size)))
    else if t = 9 || t = 10 then do
      let header := (← byte).toNat
      let count ← if header / 16 = 15 then size else pure (header / 16)
      pure (.list t (← items fuel (header % 16) count))
    else if t = 11 then do
      let count ← size
      if count = 0 then pure (.map [])
      else do
        let types := (← byte).toNat
        pure (.map (← entries fuel (types / 16) (types % 16) count))
    else if t = 12 then do
      pure (.struct (← fields fuel 0))
    else refuse
termination_by fuel _ => (fuel, 0, 0)

/-- `count` values of one type. -/
def items : Nat → Nat → Nat → Reader (List Value)
  | _, _, 0 => pure []
  | fuel, t, count + 1 => do
    let v ← value fuel t
    pure (v :: (← items fuel t count))
termination_by fuel _ count => (fuel, 1, count)

/-- `count` key and value pairs. -/
def entries : Nat → Nat → Nat → Nat → Reader (List (Value × Value))
  | _, _, _, 0 => pure []
  | fuel, k, v, count + 1 => do
    let key ← value fuel k
    let val ← value fuel v
    pure ((key, val) :: (← entries fuel k v count))
termination_by fuel _ _ count => (fuel, 1, count)

/-- The fields of a struct up to its stop header; `last` is the previous identifier. -/
def fields : Nat → Int → Reader (List (Int × Value))
  | 0, _ => refuse
  | fuel + 1, last => do
    let header := (← byte).toNat
    let t := header % 16
    if t = 0 then pure []
    else do
      let id ← if header / 16 = 0 then do pure (signed 16 (← zigzag 32))
        else pure (signed 16 (last + header / 16))
      if !knownType t then refuse
      let v ← if t = 1 || t = 2 then pure (.bool (t = 1)) else value fuel t
      pure ((id, v) :: (← fields fuel id))
termination_by fuel _ => (fuel, 0, 0)

end

/-- A struct at the front of the input, and what follows it. -/
def readStruct (input : Bytes) : Option (List (Int × Value) × Bytes) :=
  (fields (input.length + 1) 0).run input

/-! ## Fields of a struct

A reader that expects a field of one type takes the last field with its identifier and that
type; fields of other types are skipped. -/

/-- The last value of a field that a selector accepts. -/
def pick {α : Type} (fs : List (Int × Value)) (id : Int) (sel : Value → Option α) : Option α :=
  fs.foldl (fun acc (i, v) => if i = id then (sel v).orElse fun _ => acc else acc) none

/-- An integer of a compact type. -/
def Value.asInt (type : Nat) : Value → Option Int
  | .int t n => if t = type then some n else none
  | _ => none

/-- A binary. -/
def Value.asBinary : Value → Option Bytes
  | .binary b => some b
  | _ => none

/-- A struct. -/
def Value.asStruct : Value → Option (List (Int × Value))
  | .struct fs => some fs
  | _ => none

/-- A list, whatever its element type. -/
def Value.asList : Value → Option (List Value)
  | .list 9 items => some items
  | _ => none

/-- A 32-bit integer field. -/
def int32? (fs : List (Int × Value)) (id : Int) : Option Int := pick fs id (Value.asInt 5)

/-- A 64-bit integer field. -/
def int64? (fs : List (Int × Value)) (id : Int) : Option Int := pick fs id (Value.asInt 6)

/-- A binary field. -/
def binary? (fs : List (Int × Value)) (id : Int) : Option Bytes := pick fs id Value.asBinary

/-- A struct field. -/
def struct? (fs : List (Int × Value)) (id : Int) : Option (List (Int × Value)) :=
  pick fs id Value.asStruct

/-- A list field. -/
def list? (fs : List (Int × Value)) (id : Int) : Option (List Value) := pick fs id Value.asList

theorem signed_small (n : Nat) (h : n < Nat.pow 2 15) : signed 16 n = n := by
  unfold signed
  have half : Int.pow 2 (16 - 1) = 32768 := rfl
  have full : Int.pow 2 16 = 65536 := rfl
  simp only [Nat.pow_eq, Nat.reducePow] at h ⊢
  have : ((n : Int) % ((65536 : Nat) : Int)) = n := Int.emod_eq_of_lt (by omega) (by omega)
  simp only [this, half, full]
  split <;> omega

end MarketData.Thrift
