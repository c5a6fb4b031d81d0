import MarketData.Text.Bytes

/-!
DEFLATE decompression.

A stream is a run of blocks, each opening with a bit that marks the last block and two bits of
block type: stored (0), fixed codes (1) or codes sent in the block (2); type 3 is corrupt. Bits
are taken from the least significant end of each byte; Huffman codes are sent most significant
bit first. A stored block starts at the next byte boundary with its length, the complement of
its length, and the bytes. A compressed block is a run of symbols: a literal byte (0 to 255),
the end of the block (256), or a length (257 to 285) followed by a distance code, each with
extra bits, that repeats earlier output.

Codes are canonical and given by their lengths. A set of lengths must fill the code space
exactly, except that a single code of length one is allowed, and an empty set is allowed until
a symbol is read with it. A block that sends its codes gives 257 to 286 literal and length
codes, 1 to 30 distance codes, and their lengths through a code of code lengths, where 16
repeats the previous length 3 to 6 times, and 17 and 18 give 3 to 10 and 11 to 138 zeros.
A distance reaching before the start of the output is corrupt.
-/

namespace MarketData.Inflate

/-- A position in a stream of bits, least significant bit of each byte first. -/
structure Bits where
  /-- The bytes of the stream. -/
  data : ByteArray
  /-- The number of bits already taken. -/
  pos : Nat

namespace Bits

/-- The next bit. -/
def bit (s : Bits) : Option (Nat × Bits) :=
  match s.data[s.pos / 8]? with
  | some b => some ((b.toNat >>> (s.pos % 8)) % 2, { s with pos := s.pos + 1 })
  | none => none

/-- The next `n` bits as a number, the first bit least significant. -/
def take (s : Bits) : Nat → Option (Nat × Bits)
  | 0 => some (0, s)
  | n + 1 => do
    let (b, s) ← s.bit
    let (v, s) ← s.take n
    pure (b + 2 * v, s)

/-- The position moved on to the next byte boundary. -/
def align (s : Bits) : Bits := { s with pos := (s.pos + 7) / 8 * 8 }

/-- The whole bytes from the position on. -/
def rest (s : Bits) : Bytes := (s.data.toList).drop ((s.pos + 7) / 8)

end Bits

/-- A canonical code: how many codes each length has, and the symbols in code order. -/
structure Code where
  /-- The number of codes of each length from 0 to 15. -/
  counts : Array Nat
  /-- The symbols, by length and then by symbol. -/
  symbols : Array Nat

namespace Code

/-- Whether lengths fill the code space: either no code, one code of length one, or every
sequence of the longest length begins some code. -/
def fills (lengths : List Nat) : Bool :=
  let used := lengths.filter (· ≠ 0)
  match used.max? with
  | none => true
  | some longest =>
    let space := used.foldl (fun acc l => acc + Nat.pow 2 (longest - l)) 0
    space = Nat.pow 2 longest || (space = 1 && longest = 1)

/-- The code with the given length for each symbol; refused unless the lengths fill the code
space. -/
def ofLengths (lengths : List Nat) : Option Code :=
  if !fills lengths || lengths.any (· > 15) then none
  else
    let counts := (List.range 16).map fun l => (lengths.filter (· == l)).length
    let numbered := lengths.zipIdx
    let symbols := (List.range 15).flatMap fun l =>
      (numbered.filter fun (len, _) => len = l + 1).map (·.2)
    some ⟨counts.toArray, symbols.toArray⟩

/-- Reads one symbol: codes of each length are consecutive numbers, starting where the
previous length's codes end, doubled. -/
def decode (c : Code) (s : Bits) : Option (Nat × Bits) :=
  go 15 1 0 0 0 s
where
  /-- Tries the code of length `len`, having read `code` so far. -/
  go : Nat → Nat → Nat → Nat → Nat → Bits → Option (Nat × Bits)
    | 0, _, _, _, _, _ => none
    | fuel + 1, len, code, first, index, s => do
      let (b, s) ← s.bit
      let code := code + b
      let count := c.counts.getD len 0
      if code < first + count then
        if code < first then none else c.symbols[index + (code - first)]?.map fun v => (v, s)
      else go fuel (len + 1) ((code) * 2) ((first + count) * 2) (index + count) s

end Code

/-- The first length of each length symbol from 257. -/
def lengthBase : Array Nat :=
  #[3, 4, 5, 6, 7, 8, 9, 10, 11, 13, 15, 17, 19, 23, 27, 31, 35, 43, 51, 59, 67, 83, 99, 115,
    131, 163, 195, 227, 258]

/-- The extra bits of each length symbol from 257. -/
def lengthExtra : Array Nat :=
  #[0, 0, 0, 0, 0, 0, 0, 0, 1, 1, 1, 1, 2, 2, 2, 2, 3, 3, 3, 3, 4, 4, 4, 4, 5, 5, 5, 5, 0]

/-- The first distance of each distance symbol. -/
def distanceBase : Array Nat :=
  #[1, 2, 3, 4, 5, 7, 9, 13, 17, 25, 33, 49, 65, 97, 129, 193, 257, 385, 513, 769, 1025, 1537,
    2049, 3073, 4097, 6145, 8193, 12289, 16385, 24577]

/-- The extra bits of each distance symbol. -/
def distanceExtra : Array Nat :=
  #[0, 0, 0, 0, 1, 1, 2, 2, 3, 3, 4, 4, 5, 5, 6, 6, 7, 7, 8, 8, 9, 9, 10, 10, 11, 11, 12, 12,
    13, 13]

/-- The lengths of the fixed literal and length code. -/
def fixedLiteralLengths : List Nat :=
  List.replicate 144 8 ++ List.replicate 112 9 ++ List.replicate 24 7 ++ List.replicate 8 8

/-- Repeats `length` bytes starting `distance` bytes back from the end of the output. -/
def copyBack (out : Array UInt8) (distance : Nat) : Nat → Array UInt8
  | 0 => out
  | n + 1 => copyBack (out.push (out.getD (out.size - distance) 0)) distance n

/-- The symbols of a compressed block up to its end, appended to the output. -/
def symbols (literal distance : Code) : Nat → Bits → Array UInt8 → Option (Bits × Array UInt8)
  | 0, _, _ => none
  | fuel + 1, s, out => do
    let (sym, s) ← literal.decode s
    if sym < 256 then symbols literal distance fuel s (out.push sym.toUInt8)
    else if sym = 256 then pure (s, out)
    else do
      let i := sym - 257
      let base ← lengthBase[i]?
      let (extra, s) ← s.take (lengthExtra.getD i 0)
      let (d, s) ← distance.decode s
      let dBase ← distanceBase[d]?
      let (dExtra, s) ← s.take (distanceExtra.getD d 0)
      let back := dBase + dExtra
      if back > out.size then none
      else symbols literal distance fuel s (copyBack out back (base + extra))

/-- `count` code lengths read with the code of code lengths, after those already read. -/
def codeLengths (c : Code) (count : Nat) : Nat → Bits → List Nat → Option (Bits × List Nat)
  | 0, _, _ => none
  | fuel + 1, s, acc =>
    if acc.length ≥ count then some (s, acc)
    else do
      let (sym, s) ← c.decode s
      if sym < 16 then codeLengths c count fuel s (acc ++ [sym])
      else do
        let (rep, value, s) ← match sym with
          | 16 => do
            let prev ← acc.getLast?
            let (r, s) ← s.take 2
            pure (r + 3, prev, s)
          | 17 => do
            let (r, s) ← s.take 3
            pure (r + 3, 0, s)
          | _ => do
            let (r, s) ← s.take 7
            pure (r + 11, 0, s)
        if acc.length + rep > count then none
        else codeLengths c count fuel s (acc ++ List.replicate rep value)

/-- The order in which the lengths of the code of code lengths are sent. -/
def codeLengthOrder : List Nat := [16, 17, 18, 0, 8, 7, 9, 6, 10, 5, 11, 4, 12, 3, 13, 2, 14, 1, 15]

/-- The codes a block sends before its symbols. -/
def sentCodes (fuel : Nat) (s : Bits) : Option (Code × Code × Bits) := do
  let (hlit, s) ← s.take 5
  let (hdist, s) ← s.take 5
  let (hclen, s) ← s.take 4
  let nlit := hlit + 257
  let ndist := hdist + 1
  if nlit > 286 || ndist > 30 then none
  let (given, s) ← (List.range (hclen + 4)).foldlM
    (fun (acc : List Nat × Bits) _ => do
      let (l, s) ← acc.2.take 3
      pure (acc.1 ++ [l], s)) ([], s)
  let lengthOf (sym : Nat) : Nat :=
    match codeLengthOrder.idxOf? sym with
    | some i => given.getD i 0
    | none => 0
  let lengthCode ← Code.ofLengths ((List.range 19).map lengthOf)
  let (s, lengths) ← codeLengths lengthCode (nlit + ndist) fuel s []
  let literal ← Code.ofLengths (lengths.take nlit)
  let distance ← Code.ofLengths (lengths.drop nlit)
  pure (literal, distance, s)

/-- The blocks of a stream, from the position on, appended to the output. -/
def blocks : Nat → Bits → Array UInt8 → Option (Bits × Array UInt8)
  | 0, _, _ => none
  | fuel + 1, s, out => do
    let (last, s) ← s.bit
    let (type, s) ← s.take 2
    let (s, out) ← if type = 0 then do
        let s := s.align
        let (len, s) ← s.take 16
        let (nlen, s) ← s.take 16
        if len + nlen ≠ 0xFFFF then none
        let bytes := s.rest.take len
        if bytes.length < len then none
        pure ({ s with pos := s.pos + 8 * len }, out ++ bytes.toArray)
      else if type = 1 then do
        let literal ← Code.ofLengths fixedLiteralLengths
        let distance ← Code.ofLengths (List.replicate 32 5)
        symbols literal distance fuel s out
      else if type = 2 then do
        let (literal, distance, s) ← sentCodes fuel s
        symbols literal distance fuel s out
      else none
    if last = 1 then pure (s, out) else blocks fuel s out

/-- Decompresses a stream at the front of some bytes; gives the output and the bytes after
the last block's final byte. -/
def inflate (input : Bytes) : Option (Bytes × Bytes) := do
  let bits : Bits := ⟨⟨input.toArray⟩, 0⟩
  let (s, out) ← blocks (8 * input.length + 1) bits #[]
  pure (out.toList, s.rest)

end MarketData.Inflate
