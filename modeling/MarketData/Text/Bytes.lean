/-!
Byte strings.

Every text field of a market entry is a sequence of bytes: producers may send any bytes, valid
UTF-8 or not, and every format carries them unchanged. `Bytes` is that sequence as a list, so
that the codecs can be stated and proved by structural recursion. This module holds the list
form, the ASCII tests the formats rely on, and the hexadecimal spelling used to show bytes.
-/

namespace MarketData

/-- A byte string: the value of a text field, or an encoded payload. -/
abbrev Bytes := List UInt8

namespace Bytes

/-- The UTF-8 bytes of a Lean string. -/
def ofString (s : String) : Bytes := s.toUTF8.toList

/-- The bytes of an array. -/
def ofByteArray (a : ByteArray) : Bytes := a.toList

/-- The bytes as an array, for formats that index into their input. -/
def toByteArray (b : Bytes) : ByteArray := ⟨b.toArray⟩

/-- Whether a byte is an ASCII digit. -/
def isAsciiDigit (b : UInt8) : Bool := 0x30 ≤ b && b ≤ 0x39

/-- Whether every byte is below 0x80. -/
def isAscii (b : Bytes) : Bool := b.all (· < 0x80)

/-- The lowercase hexadecimal digit of a value below 16. -/
def hexDigit (n : Nat) : Char :=
  if n < 10 then Char.ofNat (0x30 + n) else Char.ofNat (0x61 + n - 10)

/-- Two lowercase hexadecimal digits per byte. -/
def toHex (b : Bytes) : String :=
  String.ofList (b.flatMap fun x => [hexDigit (x.toNat / 16), hexDigit (x.toNat % 16)])

/-- The value of one hexadecimal digit, of either case. -/
def hexValue? (c : Char) : Option Nat :=
  if '0' ≤ c && c ≤ '9' then some (c.toNat - '0'.toNat)
  else if 'a' ≤ c && c ≤ 'f' then some (c.toNat - 'a'.toNat + 10)
  else if 'A' ≤ c && c ≤ 'F' then some (c.toNat - 'A'.toNat + 10)
  else none

/-- Reads pairs of hexadecimal digits; an odd count or another character is refused. -/
def ofHexChars? : List Char → Option Bytes
  | [] => some []
  | hi :: lo :: rest => do
    let h ← hexValue? hi
    let l ← hexValue? lo
    let tail ← ofHexChars? rest
    pure ((h * 16 + l).toUInt8 :: tail)
  | [_] => none

/-- Reads a hexadecimal spelling of bytes. -/
def ofHex? (s : String) : Option Bytes := ofHexChars? s.toList

/-- Little-endian bytes of the low `width` bytes of a number. -/
def littleEndian (width : Nat) (n : Nat) : Bytes :=
  (List.range width).map fun i => (n / Nat.pow 256 i % 256).toUInt8

/-- The number whose little-endian bytes these are. -/
def readLittleEndian (b : Bytes) : Nat :=
  b.foldr (fun x acc => x.toNat + 256 * acc) 0

/-- The bytes after a prefix, if they start with it. -/
def stripPrefix? (pre b : Bytes) : Option Bytes :=
  if pre.isPrefixOf b then some (b.drop pre.length) else none

/-- The bytes before a suffix, if they end with it. -/
def stripSuffix? (suf b : Bytes) : Option Bytes :=
  if suf.isSuffixOf b then some (b.take (b.length - suf.length)) else none

/-- The bytes without one leading copy of a prefix. -/
def dropPrefix (pre b : Bytes) : Bytes := (stripPrefix? pre b).getD b

/-- The bytes without one trailing copy of a suffix. -/
def dropSuffix (suf b : Bytes) : Bytes := (stripSuffix? suf b).getD b

/-- The pieces between the occurrences of a separator byte; one more piece than separators. -/
def splitOnByte (sep : UInt8) (b : Bytes) : List Bytes :=
  b.splitOn sep

/-- The bytes with the first occurrence of a pattern replaced. -/
def replaceFirst (pat rep : Bytes) : Bytes → Bytes
  | [] => []
  | b@(x :: rest) =>
    if !pat.isEmpty && pat.isPrefixOf b then rep ++ b.drop pat.length
    else x :: replaceFirst pat rep rest

@[simp] theorem ofHexChars?_nil : ofHexChars? [] = some [] := rfl

theorem length_littleEndian (width n : Nat) : (littleEndian width n).length = width := by
  simp [littleEndian]

end Bytes

end MarketData
