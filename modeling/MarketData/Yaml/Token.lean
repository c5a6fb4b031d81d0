/-!
YAML tokens and the input they are read from.

The input is read one character at a time through a `Cursor`, which keeps the position (index,
line and column, all counted in characters from 0) and the number of line breaks read since the
last character that is neither a space nor a tab. A line break is a carriage return, a line
feed, the two together, NEL, or the Unicode line and paragraph separators; a blank is a space or
a tab.

Tokens are the words of the block and flow styles: the starts and ends of streams, documents
and collections, the indicators `-`, `?`, `:` and `,`, anchors, aliases, tags, directives and
scalars. A scalar token carries its value with escapes and line folding already applied.
-/

namespace MarketData.Yaml

/-- Why a YAML text could not be read. -/
structure Malformed where
  /-- What went wrong. -/
  reason : String
  deriving Repr

/-- A failure with a reason. -/
def malformed {α : Type} (reason : String) : Except Malformed α := .error ⟨reason⟩

/-- Whether a character is a space or a tab. -/
def isBlank (c : Char) : Bool := c = ' ' || c = '\t'

/-- Whether a character breaks a line. -/
def isBreak (c : Char) : Bool :=
  c = '\r' || c = '\n' || c = '\x85' || c = '\u2028' || c = '\u2029'

/-- Whether a character may appear in a directive name, tag handle or anchor: ASCII letters and
digits, `_` and `-`. -/
def isWordChar (c : Char) : Bool :=
  ('0' ≤ c ∧ c ≤ '9') || ('A' ≤ c ∧ c ≤ 'Z') || ('a' ≤ c ∧ c ≤ 'z') || c = '_' || c = '-'

/-- Whether a character may appear in a YAML stream: tab, line feed, carriage return, printable
ASCII, NEL, and the other characters from U+00A0 up except U+FFFE and U+FFFF. -/
def isAllowed (c : Char) : Bool :=
  let n := c.toNat
  n = 0x09 || n = 0x0A || n = 0x0D || (0x20 ≤ n && n ≤ 0x7E) || n = 0x85 ||
    (0xA0 ≤ n && n ≤ 0xD7FF) || (0xE000 ≤ n && n ≤ 0xFFFD) || 0x10000 ≤ n

/-- A position in the input. -/
structure Mark where
  /-- Characters before the position. -/
  index : Nat
  /-- Lines before the position. -/
  line : Nat
  /-- Characters before the position on its line. -/
  column : Nat
  deriving Repr, Inhabited

/-- The unread input and where it starts. -/
structure Cursor where
  /-- The characters not yet read. -/
  rest : List Char
  /-- The position of the first of them. -/
  mark : Mark
  /-- Line breaks read since the last character other than a space or tab. -/
  newlines : Nat
  deriving Inhabited

namespace Cursor

/-- The character `k` places ahead, if any. -/
def at? (c : Cursor) (k : Nat) : Option Char := c.rest[k]?

/-- Whether the character `k` places ahead is a given one. -/
def is (c : Cursor) (k : Nat) (ch : Char) : Bool := c.at? k == some ch

/-- Whether the character `k` places ahead is a blank. -/
def blankAt (c : Cursor) (k : Nat) : Bool := (c.at? k).any isBlank

/-- Whether the character `k` places ahead is a line break. -/
def breakAt (c : Cursor) (k : Nat) : Bool := (c.at? k).any isBreak

/-- Whether the character `k` places ahead is a line break or past the end. -/
def breakzAt (c : Cursor) (k : Nat) : Bool := (c.at? k).all isBreak

/-- Whether the character `k` places ahead is a blank, a line break, or past the end. -/
def blankzAt (c : Cursor) (k : Nat) : Bool := (c.at? k).all fun ch => isBlank ch || isBreak ch

/-- Whether the input is used up. -/
def atEnd (c : Cursor) : Bool := c.rest.isEmpty

/-- Moves past one character that is not a line break. -/
def skip (c : Cursor) : Cursor :=
  match c.rest with
  | [] => c
  | ch :: rest =>
    ⟨rest, ⟨c.mark.index + 1, c.mark.line, c.mark.column + 1⟩, if isBlank ch then c.newlines else 0⟩

/-- Moves past `n` characters that are not line breaks. -/
def skipN (c : Cursor) : Nat → Cursor
  | 0 => c
  | n + 1 => c.skip.skipN n

/-- The number of characters of the line break at the front: two for a carriage return and a
line feed, one for any other break, and none when no break is there. -/
def breakLength : List Char → Nat
  | '\r' :: '\n' :: _ => 2
  | ch :: _ => if isBreak ch then 1 else 0
  | [] => 0

theorem breakLength_le (l : List Char) : breakLength l ≤ l.length := by
  unfold breakLength
  split
  · simp
  · split <;> simp
  · simp

/-- Moves past a line break; a carriage return followed by a line feed counts as one. -/
def skipLine (c : Cursor) : Cursor :=
  let n := breakLength c.rest
  if n = 0 then c else ⟨c.rest.drop n, ⟨c.mark.index + n, c.mark.line + 1, 0⟩, c.newlines + 1⟩

theorem skipLine_shorter (c : Cursor) (h : breakLength c.rest ≠ 0) :
    c.skipLine.rest.length < c.rest.length := by
  have := breakLength_le c.rest
  simp only [skipLine, h, if_false, List.length_drop]
  omega

/-- Reads a line break: the line and paragraph separators are kept, every other break reads as
a line feed. -/
def readLine (c : Cursor) : Cursor × List Char :=
  match c.rest with
  | ch :: _ =>
    if ch = '\u2028' ∨ ch = '\u2029' then (c.skipLine, [ch])
    else if isBreak ch then (c.skipLine, ['\n'])
    else (c, [])
  | [] => (c, [])

/-- Moves past the characters, none of them a line break, that satisfy a test. -/
def skipWhile (p : Char → Bool) (c : Cursor) : Cursor :=
  match h : c.rest with
  | [] => c
  | ch :: rest =>
    if p ch && !isBreak ch then
      have : c.skip.rest.length < c.rest.length := by simp [skip, h]
      skipWhile p c.skip
    else c
termination_by c.rest.length

/-- Reads the characters, none of them a line break, that satisfy a test. -/
def readWhile (p : Char → Bool) (c : Cursor) : Cursor × List Char :=
  match h : c.rest with
  | [] => (c, [])
  | ch :: rest =>
    if p ch && !isBreak ch then
      have : c.skip.rest.length < c.rest.length := by simp [skip, h]
      let (c', more) := readWhile p c.skip
      (c', ch :: more)
    else (c, [])
termination_by c.rest.length

/-- Moves past blanks and line breaks. -/
def skipSpace (c : Cursor) : Cursor :=
  match h : c.rest with
  | [] => c
  | ch :: rest =>
    if isBlank ch then
      have : c.skip.rest.length < c.rest.length := by simp [skip, h]
      skipSpace c.skip
    else if hb : breakLength c.rest ≠ 0 then
      have := skipLine_shorter c hb
      skipSpace c.skipLine
    else c
termination_by c.rest.length

/-- Moves past a comment: from `#` to the end of its line, the line break excluded. -/
def skipComment (c : Cursor) : Cursor := c.skipWhile fun _ => true

end Cursor

/-- How a scalar was written. -/
inductive ScalarStyle where
  /-- Without quotes. -/
  | plain
  /-- In single quotes. -/
  | singleQuoted
  /-- In double quotes. -/
  | doubleQuoted
  /-- As a literal block. -/
  | literal
  /-- As a folded block. -/
  | folded
  deriving DecidableEq, Repr, Inhabited

/-- The tokens of a YAML stream. -/
inductive Token where
  /-- The start of the stream. -/
  | streamStart
  /-- The end of the stream. -/
  | streamEnd
  /-- A `%YAML` directive. -/
  | versionDirective (major minor : Nat)
  /-- A `%TAG` directive. -/
  | tagDirective (handle uri : String)
  /-- `---`. -/
  | documentStart
  /-- `...`. -/
  | documentEnd
  /-- The start of a block sequence, before its first `-`. -/
  | blockSequenceStart
  /-- The start of a block mapping, before its first key. -/
  | blockMappingStart
  /-- The end of a block collection. -/
  | blockEnd
  /-- `[`. -/
  | flowSequenceStart
  /-- `]`. -/
  | flowSequenceEnd
  /-- `{`. -/
  | flowMappingStart
  /-- `}`. -/
  | flowMappingEnd
  /-- `-` before a block sequence entry. -/
  | blockEntry
  /-- `,`. -/
  | flowEntry
  /-- The start of a key, explicit `?` or implied. -/
  | key
  /-- `:` before a value. -/
  | value
  /-- `*name`. -/
  | alias (name : String)
  /-- `&name`. -/
  | anchor (name : String)
  /-- A tag: its handle and suffix. -/
  | tag (handle suffix : String)
  /-- A scalar's value and style. -/
  | scalar (value : String) (style : ScalarStyle)
  deriving DecidableEq, Repr, Inhabited

end MarketData.Yaml
