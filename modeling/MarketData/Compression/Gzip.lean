import MarketData.Compression.Inflate

/-!
Gzip members.

A member is a ten-byte header (the bytes 1f 8b, method 8, flags, time, extra flags, system),
optional parts that the flags announce (extra bytes with a two-byte length, a name and a
comment each ended by a zero byte within 512 bytes, and the low half of the header's CRC-32),
a DEFLATE stream, and a trailer holding the CRC-32 and the length modulo 2^32 of the output.
Members may follow each other; their outputs are joined. Input that ends between members is
complete; anything else after a member must be another member.
-/

namespace MarketData.Gzip

/-- The CRC-32 of the reflected polynomial 0xEDB88320, continued over more bytes. -/
def crcUpdate (crc : UInt32) (b : Bytes) : UInt32 :=
  b.foldl (fun c x =>
    (List.range 8).foldl (fun c _ => if c &&& 1 = 1 then (c >>> 1) ^^^ 0xEDB88320 else c >>> 1)
      (c ^^^ x.toUInt32)) crc

/-- The CRC-32 of some bytes. -/
def crc32 (b : Bytes) : UInt32 := crcUpdate 0xFFFFFFFF b ^^^ 0xFFFFFFFF

/-- The bytes up to a zero byte within the first 512, and what follows the zero. -/
def zeroEnded (b : Bytes) : Option (Bytes × Bytes) :=
  match b.idxOf? 0 with
  | some i => if i < 512 then some (b.take (i + 1), b.drop (i + 1)) else none
  | none => none

/-- The header of a member; gives the bytes after it. -/
def header (input : Bytes) : Option Bytes := do
  let fixed := input.take 10
  if fixed.length < 10 then none
  if fixed.take 3 != [0x1f, 0x8b, 8] then none
  let flags := fixed.getD 3 0
  let mut seen := fixed
  let mut rest := input.drop 10
  if flags &&& 4 ≠ 0 then
    let size := Bytes.readLittleEndian (rest.take 2)
    if rest.length < 2 + size then none
    seen := seen ++ rest.take (2 + size)
    rest := rest.drop (2 + size)
  if flags &&& 8 ≠ 0 then
    let (name, after) ← zeroEnded rest
    seen := seen ++ name
    rest := after
  if flags &&& 16 ≠ 0 then
    let (comment, after) ← zeroEnded rest
    seen := seen ++ comment
    rest := after
  if flags &&& 2 ≠ 0 then
    if rest.length < 2 then none
    if Bytes.readLittleEndian (rest.take 2) ≠ (crc32 seen).toNat % Nat.pow 2 16 then none
    rest := rest.drop 2
  pure rest

/-- The output of the members at the front of the input; `fuel` bounds their number. -/
def members : Nat → Bytes → Option Bytes
  | 0, _ => none
  | fuel + 1, input => do
    let body ← header input
    let (out, after) ← Inflate.inflate body
    if after.length < 8 then none
    if Bytes.readLittleEndian (after.take 4) ≠ (crc32 out).toNat then none
    if Bytes.readLittleEndian ((after.drop 4).take 4) ≠ out.length % Nat.pow 2 32 then none
    let next := after.drop 8
    if next.isEmpty then pure out else pure (out ++ (← members fuel next))

/-- Decompresses a gzip file of one or more members. -/
def decompress (input : Bytes) : Option Bytes := members (input.length + 1) input

end MarketData.Gzip
