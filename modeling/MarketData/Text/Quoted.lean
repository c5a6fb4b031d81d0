import MarketData.Text.Printable

/-!
Double-quoted text.

Error messages show the text they complain about in double quotes, so that blanks, control
characters and stray bytes stay visible. A quoted form escapes the quote and the backslash,
writes printable characters as they are, spells the seven C control escapes `\a \b \f \n \r \t
\v` by name, writes other characters below the space (and DEL) and every stray byte as `\x`
and two hexadecimal digits, and any other character as `\u` and four digits, or `\U` and eight
above the Basic Multilingual Plane.
-/

namespace MarketData.Quoted

/-- `width` lowercase hexadecimal digits of `n`. -/
def hexDigits (width n : Nat) : List Char :=
  (List.range width).reverse.map fun i => Bytes.hexDigit (n / Nat.pow 16 i % 16)

/-- The quoted spelling of one character. -/
def escapeChar (c : Char) : List Char :=
  if c = '"' then ['\\', '"']
  else if c = '\\' then ['\\', '\\']
  else if isPrintable c then [c]
  else if c = '\x07' then ['\\', 'a']
  else if c = '\x08' then ['\\', 'b']
  else if c = '\x0c' then ['\\', 'f']
  else if c = '\n' then ['\\', 'n']
  else if c = '\r' then ['\\', 'r']
  else if c = '\t' then ['\\', 't']
  else if c = '\x0b' then ['\\', 'v']
  else if c.toNat < 0x20 || c.toNat == 0x7F then '\\' :: 'x' :: hexDigits 2 c.toNat
  else if c.toNat < 0x10000 then '\\' :: 'u' :: hexDigits 4 c.toNat
  else '\\' :: 'U' :: hexDigits 8 c.toNat

/-- The quoted spelling of one piece of text. -/
def escapePiece : Utf8.Piece → List Char
  | .char c => escapeChar c
  | .stray x => '\\' :: 'x' :: hexDigits 2 x.toNat

end Quoted

/-- The double-quoted form of a byte string. -/
def Bytes.quoted (b : Bytes) : String :=
  String.ofList ('"' :: (Utf8.pieces b).flatMap Quoted.escapePiece ++ ['"'])

/-- The double-quoted form of a Lean string. -/
def quoteText (s : String) : String := (Bytes.ofString s).quoted

end MarketData
