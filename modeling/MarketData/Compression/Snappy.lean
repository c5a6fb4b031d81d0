import MarketData.Text.Bytes

/-!
Snappy block decompression.

A block is the varint length of the output, at most 2^32 - 1, followed by elements. The low two
bits of an element's tag byte give its kind. A literal (0) copies the next bytes of the input;
its length minus one is the upper six bits of the tag when they are below 60, and otherwise
sits in the 1 to 4 little-endian bytes after the tag (60 to 63). A copy repeats earlier output,
byte by byte so that it may overlap what it writes: kind 1 has a length of 4 to 11 and an
11-bit offset, kind 2 a length of 1 to 64 and a 16-bit offset, kind 3 the same length and a
32-bit offset. A copy with offset 0 or reaching before the start, an element running past the
announced length or the input, and output shorter than announced all make the block corrupt.
-/

namespace MarketData.Snappy

/-- The varint at the front of some bytes, and what follows it; more than ten bytes, or a
value past 64 bits, is refused. -/
def uvarint : Nat → Bytes → Option (Nat × Bytes)
  | _, [] => none
  | 0, _ => none
  | n + 1, b :: rest =>
    if b < 0x80 then some (b.toNat, rest)
    else (uvarint n rest).map fun (v, after) => (b.toNat % 128 + 128 * v, after)

/-- Repeats `length` bytes starting `offset` bytes back from the end of the output. -/
def copyBack (out : Array UInt8) (offset : Nat) : Nat → Array UInt8
  | 0 => out
  | n + 1 => copyBack (out.push (out.getD (out.size - offset) 0)) offset n

/-- The elements of a block, appended to the output until the input ends. -/
def elements (limit : Nat) (out : Array UInt8) : Bytes → Option (Array UInt8)
  | [] => some out
  | tag :: rest =>
    let kind := tag.toNat % 4
    let upper := tag.toNat / 4
    if kind = 0 then
      let width := if upper < 60 then 0 else upper - 59
      if rest.length < width then none
      else
        let n := if upper < 60 then upper + 1 else Bytes.readLittleEndian (rest.take width) + 1
        let body := rest.drop width
        if n > limit - out.size || n > body.length then none
        else elements limit (out ++ (body.take n).toArray) (body.drop n)
    else
      let (length, offsetWidth) :=
        if kind = 1 then (4 + upper % 8, 1) else (1 + upper, if kind = 2 then 2 else 4)
      if rest.length < offsetWidth then none
      else
        let low := Bytes.readLittleEndian (rest.take offsetWidth)
        let offset := if kind = 1 then upper / 8 * 256 + low else low
        if offset = 0 || out.size < offset || length > limit - out.size then none
        else elements limit (copyBack out offset length) (rest.drop offsetWidth)
termination_by input => input.length
decreasing_by all_goals (simp only [List.length_drop, List.length_cons]; omega)

/-- Decompresses a block. -/
def decode (input : Bytes) : Option Bytes := do
  let (length, body) ← uvarint 10 input
  if length ≥ Nat.pow 2 32 then none
  let out ← elements length #[] body
  if out.size = length then some out.toList else none

end MarketData.Snappy
