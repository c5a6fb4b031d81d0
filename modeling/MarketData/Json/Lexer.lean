import MarketData.Text.Utf8

/-!
JSON tokens.

The pieces of JSON text (RFC 8259) that more than one reader needs: the four blank bytes
between tokens, and string literals. A string literal is read into the bytes it stands for:
escapes are resolved, a `\u` escape of a lone surrogate becomes U+FFFD, a surrogate pair becomes
the character it encodes, and a byte outside any well-formed UTF-8 sequence becomes U+FFFD. A
control character inside the quotes, an unknown escape, or a missing closing quote makes the
literal unreadable.
-/

namespace MarketData.Json

/-- The blank bytes of JSON: space, tab, line feed and carriage return. -/
def isSpace (b : UInt8) : Bool := b == 0x20 || b == 0x09 || b == 0x0A || b == 0x0D

/-- The text after its leading JSON blanks. -/
def skipSpace (b : Bytes) : Bytes := b.dropWhile isSpace

/-- The value of a hexadecimal digit byte. -/
def hexByte? (b : UInt8) : Option Nat := Bytes.hexValue? (Char.ofNat b.toNat)

/-- The value of four hexadecimal digits at the head of the text, and the text after them. -/
def hex4? : Bytes → Option (Nat × Bytes)
  | a :: b :: c :: d :: rest =>
    match hexByte? a, hexByte? b, hexByte? c, hexByte? d with
    | some va, some vb, some vc, some vd => some (((va * 16 + vb) * 16 + vc) * 16 + vd, rest)
    | _, _, _, _ => none
  | _ => none

theorem hex4?_length {b rest : Bytes} {n : Nat} (h : hex4? b = some (n, rest)) :
    rest.length + 4 = b.length := by
  unfold hex4? at h
  split at h
  · split at h
    · simp only [Option.some.injEq, Prod.mk.injEq] at h
      simp [← h.2]
    · simp at h
  · simp at h

/-- Whether a code point is a UTF-16 surrogate. -/
def isSurrogate (n : Nat) : Bool := 0xD800 ≤ n && n ≤ 0xDFFF

/-- A `\u` escape of a low surrogate at the head of the text: its code point and the text after
it. -/
def lowSurrogate? : Bytes → Option (Nat × Bytes)
  | 0x5C :: 0x75 :: more =>
    match hex4? more with
    | some (m, after) => if 0xDC00 ≤ m && m ≤ 0xDFFF then some (m, after) else none
    | none => none
  | _ => none

theorem lowSurrogate?_length {b rest : Bytes} {m : Nat} (h : lowSurrogate? b = some (m, rest)) :
    rest.length < b.length := by
  unfold lowSurrogate? at h
  split at h
  · rename_i more
    split at h
    · rename_i m' after hm
      have := hex4?_length hm
      split at h
      · simp only [Option.some.injEq, Prod.mk.injEq] at h
        simp only [← h.2, List.length_cons]
        omega
      · simp at h
    · simp at h
  · simp at h

/-- The character of a `\u` escape whose four digits are read, with the text after it: a high
surrogate followed by a `\u` escape of a low one makes one character, any other surrogate is
U+FFFD. -/
def unicodeEscape (n : Nat) (rest : Bytes) : Char × Bytes :=
  if isSurrogate n then
    if n < 0xDC00 then
      match lowSurrogate? rest with
      | some (m, after) => (Char.ofNat (0x10000 + (n - 0xD800) * 0x400 + (m - 0xDC00)), after)
      | none => (Utf8.replacement, rest)
    else (Utf8.replacement, rest)
  else (Char.ofNat n, rest)

theorem unicodeEscape_length (n : Nat) (rest : Bytes) :
    (unicodeEscape n rest).2.length ≤ rest.length := by
  unfold unicodeEscape
  split
  · split
    · split
      · rename_i m after h
        exact Nat.le_of_lt (lowSurrogate?_length h)
      · exact Nat.le_refl _
    · exact Nat.le_refl _
  · exact Nat.le_refl _

/-- The byte a one-letter escape stands for. -/
def simpleEscape? (e : UInt8) : Option UInt8 :=
  if e == 0x22 then some 0x22 else if e == 0x5C then some 0x5C
  else if e == 0x2F then some 0x2F else if e == 0x62 then some 0x08
  else if e == 0x66 then some 0x0C else if e == 0x6E then some 0x0A
  else if e == 0x72 then some 0x0D else if e == 0x74 then some 0x09 else none

/-- Reads the body of a string literal after its opening quote, adding what it stands for to
`acc`: the bytes and the text after the closing quote. -/
def stringBody (acc : Bytes) : Bytes → Option (Bytes × Bytes)
  | [] => none
  | 0x22 :: rest => some (acc, rest)
  | 0x5C :: e :: rest =>
    if e == 0x75 then
      match h : hex4? rest with
      | some (n, after) =>
        have : (unicodeEscape n after).2.length < rest.length + 2 := by
          have h1 := hex4?_length h
          have h2 := unicodeEscape_length n after
          omega
        stringBody (acc ++ Utf8.encodeChar (unicodeEscape n after).1) (unicodeEscape n after).2
      | none => none
    else
      match simpleEscape? e with
      | some x => stringBody (acc ++ [x]) rest
      | none => none
  | x :: rest =>
    if x < 0x20 then none
    else
      match h : Utf8.decodeHead? (x :: rest) with
      | some (c, after) =>
        have : after.length < rest.length + 1 := Utf8.decodeHead?_length h
        stringBody (acc ++ Utf8.encodeChar c) after
      | none => stringBody (acc ++ Utf8.encodeChar Utf8.replacement) rest
termination_by b => b.length

/-- Reads a string literal at the head of the text: the bytes it stands for and the text after
it. -/
def readString? : Bytes → Option (Bytes × Bytes)
  | 0x22 :: rest => stringBody [] rest
  | _ => none

/-- The bytes of a text that is one string literal, with blanks around it allowed. -/
def stringValue? (b : Bytes) : Option Bytes :=
  match readString? (skipSpace b) with
  | some (s, rest) => if (skipSpace rest).isEmpty then some s else none
  | none => none

end MarketData.Json
