import MarketData.Text.Utf8

/-!
White space and trimming.

A blank is a character of the Unicode `White_Space` property: the ASCII tab, line feed,
vertical tab, form feed, carriage return and space, the Latin-1 next line (U+0085) and no-break
space (U+00A0), and above Latin-1 the Ogham space mark, the spaces U+2000 … U+200A, the line and
paragraph separators, the narrow no-break space, the medium mathematical space and the
ideographic space.

`trimBlank` removes blank characters from both ends of a byte string and leaves everything
between them, stray bytes included, as it was.
-/

namespace MarketData

/-- Whether a character is white space. -/
def isBlank (c : Char) : Bool :=
  let n := c.toNat
  if n ≤ 0xFF then
    n == 0x09 || n == 0x0A || n == 0x0B || n == 0x0C || n == 0x0D || n == 0x20 || n == 0x85 ||
      n == 0xA0
  else
    n == 0x1680 || (0x2000 ≤ n && n ≤ 0x200A) || n == 0x2028 || n == 0x2029 || n == 0x202F ||
      n == 0x205F || n == 0x3000

example : isBlank ' ' = true := by decide

example : isBlank '　' = true := by decide

namespace Utf8

/-- Whether a piece is a blank character. -/
def Piece.isBlank : Piece → Bool
  | .char c => MarketData.isBlank c
  | .stray _ => false

end Utf8

namespace Bytes

/-- The bytes without the blank characters at their start. -/
def trimBlankStart (b : Bytes) : Bytes :=
  Utf8.joinPieces ((Utf8.pieces b).dropWhile Utf8.Piece.isBlank)

/-- The bytes without the blank characters at their end. -/
def trimBlankEnd (b : Bytes) : Bytes :=
  Utf8.joinPieces (((Utf8.pieces b).reverse.dropWhile Utf8.Piece.isBlank).reverse)

/-- The bytes without the blank characters at either end. -/
def trimBlank (b : Bytes) : Bytes :=
  Utf8.joinPieces
    ((((Utf8.pieces b).dropWhile Utf8.Piece.isBlank).reverse.dropWhile Utf8.Piece.isBlank).reverse)

end Bytes

end MarketData
