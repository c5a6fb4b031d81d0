import MarketData.Text.Bytes

/-!
UTF-8 over byte strings.

Text operations (trimming, case mapping, quoting) work on characters, while the values they
apply to are arbitrary bytes. `Utf8.runes` reads bytes as characters the way every text
operation of this library does: a well-formed sequence (RFC 3629 §4) is one character, and any
other byte stands alone as U+FFFD, the replacement character. `Utf8.encode` writes characters
back, so `encode (runes b) = b` exactly when `b` is valid UTF-8.
-/

namespace MarketData.Utf8

/-- The replacement character that stands for a byte outside any well-formed sequence. -/
def replacement : Char := '�'

/-- A continuation byte `0x80 … 0xBF`. -/
def isTail (b : UInt8) : Bool := 0x80 ≤ b && b ≤ 0xBF

/-- The six low bits of a continuation byte. -/
def tailBits (b : UInt8) : Nat := b.toNat % 64

/-- The character a well-formed sequence at the head of the bytes spells, and the bytes after
it; `none` when the head is not a well-formed sequence. -/
def decodeHead? : Bytes → Option (Char × Bytes)
  | [] => none
  | a :: rest =>
    if a < 0x80 then some (Char.ofNat a.toNat, rest)
    else if 0xC2 ≤ a && a ≤ 0xDF then
      match rest with
      | b :: rest' =>
        if isTail b then some (Char.ofNat ((a.toNat % 32) * 64 + tailBits b), rest') else none
      | [] => none
    else if 0xE0 ≤ a && a ≤ 0xEF then
      match rest with
      | b :: c :: rest' =>
        let lo : UInt8 := if a = 0xE0 then 0xA0 else 0x80
        let hi : UInt8 := if a = 0xED then 0x9F else 0xBF
        if lo ≤ b && b ≤ hi && isTail c then
          some (Char.ofNat ((a.toNat % 16) * 4096 + tailBits b * 64 + tailBits c), rest')
        else none
      | _ => none
    else if 0xF0 ≤ a && a ≤ 0xF4 then
      match rest with
      | b :: c :: d :: rest' =>
        let lo : UInt8 := if a = 0xF0 then 0x90 else 0x80
        let hi : UInt8 := if a = 0xF4 then 0x8F else 0xBF
        if lo ≤ b && b ≤ hi && isTail c && isTail d then
          some (Char.ofNat ((a.toNat % 8) * 262144 + tailBits b * 4096 + tailBits c * 64
            + tailBits d), rest')
        else none
      | _ => none
    else none

theorem decodeHead?_length {b : Bytes} {c : Char} {rest : Bytes}
    (h : decodeHead? b = some (c, rest)) : rest.length < b.length := by
  unfold decodeHead? at h
  repeat' split at h
  all_goals simp_all <;> omega

/-- One piece of a byte string read as text: a character spelled by a well-formed sequence, or
a byte that starts none. -/
inductive Piece where
  /-- A well-formed sequence and the character it spells. -/
  | char (c : Char)
  /-- A byte outside any well-formed sequence. -/
  | stray (b : UInt8)
  deriving DecidableEq, Repr

/-- The pieces of a byte string, read from the front. -/
def pieces (b : Bytes) : List Piece :=
  match h : decodeHead? b with
  | some (c, rest) =>
    have : rest.length < b.length := decodeHead?_length h
    .char c :: pieces rest
  | none =>
    match b with
    | [] => []
    | x :: rest => .stray x :: pieces rest
termination_by b.length

/-- The character a piece reads as: its own, or U+FFFD for a stray byte. -/
def Piece.rune : Piece → Char
  | .char c => c
  | .stray _ => replacement

/-- The characters the bytes spell, each ill-formed byte read as U+FFFD. -/
def runes (b : Bytes) : List Char := (pieces b).map Piece.rune

/-- The UTF-8 bytes of one character. -/
def encodeChar (c : Char) : Bytes := String.utf8EncodeChar c

/-- The UTF-8 bytes of a list of characters. -/
def encode (cs : List Char) : Bytes := cs.flatMap encodeChar

/-- The bytes a piece was read from. -/
def Piece.bytes : Piece → Bytes
  | .char c => encodeChar c
  | .stray x => [x]

/-- The bytes of a list of pieces, in order. -/
def joinPieces (ps : List Piece) : Bytes := ps.flatMap Piece.bytes

/-- Whether the bytes are well-formed UTF-8 throughout. -/
def isValid (b : Bytes) : Bool :=
  match h : decodeHead? b with
  | some (_, rest) =>
    have : rest.length < b.length := decodeHead?_length h
    isValid rest
  | none => b.isEmpty
termination_by b.length

/-- The text the bytes spell, each ill-formed byte read as U+FFFD. -/
def toStringLossy (b : Bytes) : String := String.ofList (runes b)

/-- Re-encodes the characters the bytes spell: valid text is unchanged, and each ill-formed
byte becomes the three bytes of U+FFFD. -/
def sanitize (b : Bytes) : Bytes := encode (runes b)

@[simp] theorem pieces_nil : pieces [] = [] := by
  rw [pieces]; rfl

@[simp] theorem runes_nil : runes [] = [] := by
  simp [runes]

@[simp] theorem encode_nil : encode [] = [] := rfl

theorem encode_cons (c : Char) (cs : List Char) : encode (c :: cs) = encodeChar c ++ encode cs :=
  rfl

end MarketData.Utf8
