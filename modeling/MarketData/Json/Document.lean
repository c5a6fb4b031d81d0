import MarketData.Text.Utf8
import MarketData.Number.Notation

/-!
JSON documents and their text.

A document is a tree of null, booleans, numbers, strings, arrays and objects. Numbers are held
as their text, so that integers of any size and floats in a chosen notation are written exactly;
strings are byte strings, since text from the wire need not be valid UTF-8. Object members keep
the order they are given in.

Strings are written with the escapes that keep a document safe inside HTML: the quote and the
backslash, the newline, return and tab by their short escapes; other control characters and
`<`, `>`, `&`, U+2028 and U+2029 as `\u` escapes; a byte that is not part of valid UTF-8 as
`�`. The compact form has no blanks; the indented form puts each member and element on a
line of its own, one indent deeper than its container, and `": "` after a key.
-/

namespace MarketData.Json

/-- A JSON document. -/
inductive Document where
  /-- `null`. -/
  | null
  /-- `true` or `false`. -/
  | bool (b : Bool)
  /-- A number, as the text written for it. -/
  | number (text : String)
  /-- A string, as bytes. -/
  | string (s : Bytes)
  /-- An array. -/
  | array (items : List Document)
  /-- An object, its members in order. -/
  | object (members : List (String × Document))
  deriving Repr, Inhabited

namespace Document

/-- A string of Lean text. -/
def text (s : String) : Document := .string (Bytes.ofString s)

/-- An integer. -/
def int (n : Int) : Document := .number (toString n)

/-- A natural number. -/
def nat (n : Nat) : Document := .number (toString n)

end Document

/-- Floats in documents: positional for decimal exponents from -6 to 20, otherwise an exponent
of at least two digits when positive and one when negative (`1e+21`, `1e-7`). -/
def floatNotation : Notation := ⟨-6, 20, 2, 1⟩

/-- Four lowercase hexadecimal digits of a code point below 0x10000. -/
def hex4 (n : Nat) : List Char :=
  (List.range 4).reverse.map fun i => Bytes.hexDigit (n / Nat.pow 16 i % 16)

/-- The escaped spelling of one character inside a string. -/
def escapeChar (c : Char) : List Char :=
  if c = '"' then ['\\', '"']
  else if c = '\\' then ['\\', '\\']
  else if c = '\n' then ['\\', 'n']
  else if c = '\r' then ['\\', 'r']
  else if c = '\t' then ['\\', 't']
  else if c.toNat < 0x20 || c = '<' || c = '>' || c = '&' || c.toNat == 0x2028 || c.toNat == 0x2029
  then '\\' :: 'u' :: hex4 c.toNat
  else [c]

/-- The escaped spelling of one piece of a byte string. -/
def escapePiece : Utf8.Piece → List Char
  | .char c => escapeChar c
  | .stray _ => ['\\', 'u', 'f', 'f', 'f', 'd']

/-- A byte string as a JSON string literal. -/
def quote (b : Bytes) : String :=
  String.ofList ('"' :: (Utf8.pieces b).flatMap escapePiece ++ ['"'])

mutual

/-- The compact text of a document. -/
def Document.compact : Document → String
  | .null => "null"
  | .bool b => if b then "true" else "false"
  | .number t => t
  | .string s => quote s
  | .array items => "[" ++ compactItems items ++ "]"
  | .object members => "\x7b" ++ compactMembers members ++ "\x7d"

/-- The compact text of array elements, comma separated. -/
def compactItems : List Document → String
  | [] => ""
  | [x] => x.compact
  | x :: rest => x.compact ++ "," ++ compactItems rest

/-- The compact text of object members, comma separated. -/
def compactMembers : List (String × Document) → String
  | [] => ""
  | [(k, v)] => quote (Bytes.ofString k) ++ ":" ++ v.compact
  | (k, v) :: rest => quote (Bytes.ofString k) ++ ":" ++ v.compact ++ "," ++ compactMembers rest

end

/-- A line break followed by `depth` indents. -/
def newline (indent : String) (depth : Nat) : String :=
  "\n" ++ String.join (List.replicate depth indent)

mutual

/-- The indented text of a document whose first line is at `depth` indents. -/
def Document.indented (indent : String) (depth : Nat) : Document → String
  | .array [] => "[]"
  | .object [] => "\x7b\x7d"
  | .array items =>
    "[" ++ indentedItems indent (depth + 1) items ++ newline indent depth ++ "]"
  | .object members =>
    "\x7b" ++ indentedMembers indent (depth + 1) members ++ newline indent depth ++ "\x7d"
  | d => d.compact

/-- Array elements, each on a line of its own at `depth` indents. -/
def indentedItems (indent : String) (depth : Nat) : List Document → String
  | [] => ""
  | [x] => newline indent depth ++ x.indented indent depth
  | x :: rest =>
    newline indent depth ++ x.indented indent depth ++ "," ++ indentedItems indent depth rest

/-- Object members, each on a line of its own at `depth` indents. -/
def indentedMembers (indent : String) (depth : Nat) : List (String × Document) → String
  | [] => ""
  | [(k, v)] => newline indent depth ++ quote (Bytes.ofString k) ++ ": " ++ v.indented indent depth
  | (k, v) :: rest =>
    newline indent depth ++ quote (Bytes.ofString k) ++ ": " ++ v.indented indent depth ++ "," ++
      indentedMembers indent depth rest

end

/-- The text of a document: compact for an empty indent, else indented by it. -/
def Document.render (indent : String) (d : Document) : String :=
  if indent.isEmpty then d.compact else d.indented indent 0

end MarketData.Json
