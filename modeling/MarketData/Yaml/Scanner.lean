import MarketData.Yaml.Token
import MarketData.Text.Utf8

/-!
Scanning YAML text into tokens.

The scanner produces tokens on demand and keeps all of them, read or not, in one array. Block
collections are found from indentation: a line that starts further right than the current
indentation opens a sequence at a `-` or a mapping at a key, and each line that starts further
left closes the collections it leaves with a block end. Inside brackets indentation does not
matter.

A key is usually implied: a scalar, alias, anchor, tag or flow collection may start one, and
only a `:` found later on the same line, within 1024 characters, makes it a key. Such a possible
key is remembered with the number its token would have; when the `:` comes, the key token, and
in block context the start of a mapping, are inserted before it. In block context a token at
the current indentation must start a key, so a possible key there that is dropped is an error.

When the parser asks for the next token, tokens are scanned until at least three are waiting
and the first of them is not a possible key; errors in that stretch of text are reported then.

Comments are skipped: a comment after a token on its line, and a comment on a line of its own
together with the comment lines that follow it.
-/

namespace MarketData.Yaml

/-- A place where a key may start. -/
structure SimpleKey where
  /-- Whether a key may still start there. -/
  possible : Bool
  /-- Whether it must be a key: the place is at the indentation of a block collection. -/
  required : Bool
  /-- The number of the token at the place. -/
  tokenNumber : Nat
  /-- The place. -/
  mark : Mark
  deriving Inhabited

/-- The state of the scanner. -/
structure Scanner where
  /-- The input not yet scanned. -/
  cursor : Cursor
  /-- Every token scanned so far, in order. -/
  tokens : Array Token
  /-- The number of tokens the parser has taken. -/
  parsed : Nat
  /-- The current indentation, -1 outside any block collection. -/
  indent : Int
  /-- The indentations of the enclosing block collections, innermost first. -/
  indents : List Int
  /-- The depth of brackets. -/
  flowLevel : Nat
  /-- Whether a key may start at the current place. -/
  simpleKeyAllowed : Bool
  /-- The possible key of each bracket depth, outermost first. -/
  simpleKeys : Array SimpleKey
  /-- For each possible key, by token number, its depth in `simpleKeys`. -/
  keysByToken : List (Nat × Nat)
  /-- Whether the stream start has been produced. -/
  started : Bool
  deriving Inhabited

/-- The tokens of a scanner waiting for the parser. -/
def Scanner.waiting (s : Scanner) : Nat := s.tokens.size - s.parsed

/-- The grave accent, which YAML reserves. -/
def backtick : Char := Char.ofNat 0x60

/-- The characters that may follow an anchor or alias name. -/
def anchorEnders : List Char := ['?', ':', ',', ']', '}', '%', '@', backtick]

/-- The characters that may appear in a tag URI besides letters and digits. -/
def uriChars : List Char := [';', '/', '?', ':', '@', '&', '=', '+', '$', '.', '!', '~', '*', '\'', '(', ')']

/-- The characters that a plain scalar cannot start with. -/
def indicators : List Char :=
  ['-', '?', ':', ',', '[', ']', '{', '}', '#', '&', '*', '!', '|', '>', '\'', '"', '%', '@', backtick]

/-- The number of bytes of a UTF-8 sequence announced by its first byte, or 0. -/
def utf8Width (b : UInt8) : Nat :=
  if b &&& 0x80 = 0 then 1
  else if b &&& 0xE0 = 0xC0 then 2
  else if b &&& 0xF0 = 0xE0 then 3
  else if b &&& 0xF8 = 0xF0 then 4
  else 0

namespace Cursor

/-- Whether the cursor stands at `---` or `...` at the start of a line, followed by a blank, a
break or the end. -/
def atDocumentIndicator (c : Cursor) : Bool :=
  c.mark.column = 0 && c.blankzAt 3 &&
    ((c.is 0 '-' && c.is 1 '-' && c.is 2 '-') || (c.is 0 '.' && c.is 1 '.' && c.is 2 '.'))

/-- The value of a hexadecimal digit `k` places ahead. -/
def hexAt? (c : Cursor) (k : Nat) : Option Nat :=
  (c.at? k).bind fun ch =>
    if '0' ≤ ch ∧ ch ≤ '9' then some (ch.toNat - '0'.toNat)
    else if 'a' ≤ ch ∧ ch ≤ 'f' then some (ch.toNat - 'a'.toNat + 10)
    else if 'A' ≤ ch ∧ ch ≤ 'F' then some (ch.toNat - 'A'.toNat + 10)
    else none

/-- Skips the comment after a token on its line: blanks, then `#` and the rest of the line.
Nothing is skipped after a line break, or when no `#` follows within 512 blanks. -/
def lineComment (c : Cursor) : Cursor :=
  if c.newlines > 0 then c
  else
    let blanks := c.rest.takeWhile isBlank
    if blanks.length < 512 && (c.rest.drop blanks.length).head? == some '#' then
      (c.skipN blanks.length).skipComment
    else c

/-- Skips comment lines after the comment at the cursor: while the next character other than
blanks and line breaks, found within 512 characters, is `#`, skips to the end of that comment. -/
def moreComments (c : Cursor) : Nat → Cursor
  | 0 => c
  | fuel + 1 =>
    let gap := c.rest.takeWhile fun ch => isBlank ch || isBreak ch
    if gap.length < 512 && (c.rest.drop gap.length).head? == some '#' then
      moreComments c.skipSpace.skipComment fuel
    else c

/-- Skips a comment and the comment lines that follow it, up to the end of the last one. -/
def comments (c : Cursor) : Cursor := c.skipComment.moreComments (c.rest.length + 1)

end Cursor

/-! ## Scalars and other tokens read from the cursor -/

/-- One or two digits of a version number. -/
def versionNumber (c : Cursor) : Except Malformed (Nat × Cursor) := do
  let (c, ds) := c.readWhile Char.isDigit
  if ds.length > 2 then malformed "found extremely long version number"
  if ds.isEmpty then malformed "did not find expected version number"
  pure (ds.foldl (fun n d => 10 * n + (d.toNat - '0'.toNat)) 0, c)

/-- A tag handle: `!`, `!!` or `!word!`; outside a directive, `!word` is read too and is the
start of a tag. -/
def tagHandle (directive : Bool) (c : Cursor) : Except Malformed (List Char × Cursor) := do
  if !c.is 0 '!' then malformed "did not find expected '!'"
  let (c, word) := c.skip.readWhile isWordChar
  if c.is 0 '!' then pure ('!' :: word ++ ['!'], c.skip)
  else if directive && !word.isEmpty then malformed "did not find expected '!'"
  else pure ('!' :: word, c)

/-- The bytes of one character written as `%XX` escapes. -/
def uriEscape (c : Cursor) : Except Malformed (Bytes × Cursor) := do
  let octet (c : Cursor) : Except Malformed (UInt8 × Cursor) :=
    match c.is 0 '%', c.hexAt? 1, c.hexAt? 2 with
    | true, some hi, some lo => pure ((16 * hi + lo).toUInt8, c.skipN 3)
    | _, _, _ => malformed "did not find URI escaped octet"
  let (first, c) ← octet c
  let width := utf8Width first
  if width = 0 then malformed "found an incorrect leading UTF-8 octet"
  (List.range (width - 1)).foldlM (fun (acc : Bytes × Cursor) _ => do
    let (b, c) ← octet acc.2
    if b &&& 0xC0 ≠ 0x80 then malformed "found an incorrect trailing UTF-8 octet"
    pure (acc.1 ++ [b], c)) ([first], c)

/-- The characters of a tag URI after `head` (whose `!` is dropped); a URI inside `!<...>` or a
directive may also hold `,`, `[` and `]`. -/
def tagUri (uriChar : Bool) (head : List Char) (c : Cursor) : Except Malformed (String × Cursor) := do
  let rec go (fuel : Nat) (acc : Bytes) (c : Cursor) : Except Malformed (Bytes × Cursor) :=
    match fuel, c.at? 0 with
    | fuel + 1, some ch =>
      if ch = '%' then do
        let (bs, c) ← uriEscape c
        go fuel (acc ++ bs) c
      else if isWordChar ch || uriChars.contains ch || (uriChar && [',', '[', ']'].contains ch) then
        go fuel (acc ++ Utf8.encodeChar ch) c.skip
      else pure (acc, c)
    | _, _ => pure (acc, c)
  let (uri, c') ← go (c.rest.length + 1) (Utf8.encode (head.drop 1)) c
  if head.isEmpty && c'.mark.index = c.mark.index then malformed "did not find expected tag URI"
  pure (Utf8.toStringLossy uri, c')

/-- A tag: `!<uri>`, `!handle!suffix`, `!suffix`, or `!` alone, which has an empty handle. -/
def scanTag (flowLevel : Nat) (c : Cursor) : Except Malformed (Token × Cursor) := do
  let (handle, suffix, c) ← if c.is 1 '<' then do
      let (suffix, c) ← tagUri true [] (c.skipN 2)
      if !c.is 0 '>' then malformed "did not find the expected '>'"
      pure ("", suffix, c.skip)
    else do
      let (handle, c) ← tagHandle false c
      if handle.length > 1 && handle.getLast? == some '!' then
        let (suffix, c) ← tagUri false [] c
        pure (String.ofList handle, suffix, c)
      else
        let (suffix, c) ← tagUri false handle c
        if suffix.isEmpty then pure ("", "!", c) else pure ("!", suffix, c)
  if !c.blankzAt 0 && (flowLevel = 0 || !c.is 0 ',') then
    malformed "did not find expected whitespace or line break"
  pure (.tag handle suffix, c)

/-- A directive: `%YAML major.minor` or `%TAG handle prefix`, then an optional comment and the
line break. -/
def scanDirective (c : Cursor) : Except Malformed (Token × Cursor) := do
  let (c, name) := c.skip.readWhile isWordChar
  if name.isEmpty then malformed "could not find expected directive name"
  if !c.blankzAt 0 then malformed "found unexpected non-alphabetical character"
  let (token, c) ← if name = "YAML".toList then do
      let c := c.skipWhile isBlank
      let (major, c) ← versionNumber c
      if !c.is 0 '.' then malformed "did not find expected digit or '.' character"
      let (minor, c) ← versionNumber c.skip
      pure (Token.versionDirective major minor, c)
    else if name = "TAG".toList then do
      let c := c.skipWhile isBlank
      let (handle, c) ← tagHandle true c
      if !c.blankAt 0 then malformed "did not find expected whitespace"
      let (uri, c) ← tagUri true [] (c.skipWhile isBlank)
      if !c.blankzAt 0 then malformed "did not find expected whitespace or line break"
      pure (Token.tagDirective (String.ofList handle) uri, c)
    else malformed "found unknown directive name"
  let c := c.skipWhile isBlank
  let c := if c.is 0 '#' then c.skipComment else c
  if !c.breakzAt 0 then malformed "did not find expected comment or line break"
  pure (token, if c.breakAt 0 then c.skipLine else c)

/-- An anchor `&name` or alias `*name`; the name must be followed by a blank, a break, the end
or one of `?:,]}%@`. -/
def scanAnchor (isAlias : Bool) (c : Cursor) : Except Malformed (Token × Cursor) := do
  let (c, name) := c.skip.readWhile isWordChar
  let ended := match c.at? 0 with
    | none => true
    | some ch => isBlank ch || isBreak ch || anchorEnders.contains ch
  if name.isEmpty || !ended then malformed "did not find expected alphabetic or numeric character"
  let name := String.ofList name
  pure (if isAlias then .alias name else .anchor name, c)

/-- Line breaks and blanks gathered between the words of a scalar. -/
structure Gap where
  /-- Blanks since the last word, when no break came. -/
  whitespaces : List Char := []
  /-- The first line break. -/
  leadingBreak : List Char := []
  /-- The line breaks after the first. -/
  trailingBreaks : List Char := []
  /-- Whether a line break came. -/
  broken : Bool := false

/-- The text that a gap stands for in a flow or plain scalar: its blanks when no line broke; a
space for a single line feed; else the breaks after the first, with the first kept unless it
is a line feed. -/
def Gap.folded (g : Gap) : List Char :=
  if g.broken then
    if g.leadingBreak.head? == some '\n' then
      if g.trailingBreaks.isEmpty then [' '] else g.trailingBreaks
    else g.leadingBreak ++ g.trailingBreaks
  else g.whitespaces

/-- Reads blanks and line breaks into a gap. In a plain scalar (`tabLimit` set) a tab left of
that column after a line break is an error. -/
def readGap (tabLimit : Option Int) (g : Gap) (c : Cursor) : Nat → Except Malformed (Gap × Cursor)
  | 0 => pure (g, c)
  | fuel + 1 =>
    match c.at? 0 with
    | some ch =>
      if isBlank ch then
        if g.broken && ch = '\t' && tabLimit.any (fun limit => (c.mark.column : Int) < limit) then
          malformed "found a tab character that violates indentation"
        else if g.broken then readGap tabLimit g c.skip fuel
        else readGap tabLimit { g with whitespaces := g.whitespaces ++ [ch] } c.skip fuel
      else if isBreak ch then
        let (c', brk) := c.readLine
        if g.broken then readGap tabLimit { g with trailingBreaks := g.trailingBreaks ++ brk } c' fuel
        else readGap tabLimit { g with whitespaces := [], leadingBreak := brk, broken := true } c' fuel
      else pure (g, c)
    | none => pure (g, c)

/-- The character of an escape in a double-quoted scalar, after the backslash, with the number
of hexadecimal digits that follow for `x`, `u` and `U`. -/
def escapeOf (ch : Char) : Option (Option Char × Nat) :=
  match ch with
  | '0' => some (some '\x00', 0)
  | 'a' => some (some '\x07', 0)
  | 'b' => some (some '\x08', 0)
  | 't' | '\t' => some (some '\t', 0)
  | 'n' => some (some '\n', 0)
  | 'v' => some (some '\x0b', 0)
  | 'f' => some (some '\x0c', 0)
  | 'r' => some (some '\r', 0)
  | 'e' => some (some '\x1b', 0)
  | ' ' => some (some ' ', 0)
  | '"' => some (some '"', 0)
  | '/' => some (some '/', 0)
  | '\'' => some (some '\'', 0)
  | '\\' => some (some '\\', 0)
  | 'N' => some (some '\x85', 0)
  | '_' => some (some '\xa0', 0)
  | 'L' => some (some '\u2028', 0)
  | 'P' => some (some '\u2029', 0)
  | 'x' => some (none, 2)
  | 'u' => some (none, 4)
  | 'U' => some (none, 8)
  | _ => none

/-- The words of a quoted scalar up to a blank, a break, the end or the closing quote; also
whether an escaped line break ended them. -/
def quotedWords (single : Bool) (acc : List Char) (c : Cursor) :
    Nat → Except Malformed (List Char × Bool × Cursor)
  | 0 => pure (acc, false, c)
  | fuel + 1 =>
    match c.at? 0 with
    | none => pure (acc, false, c)
    | some ch =>
      if isBlank ch || isBreak ch then pure (acc, false, c)
      else if single && ch = '\'' then
        if c.is 1 '\'' then quotedWords single (acc ++ ['\'']) (c.skipN 2) fuel
        else pure (acc, false, c)
      else if !single && ch = '"' then pure (acc, false, c)
      else if !single && ch = '\\' && c.breakAt 1 then pure (acc, true, c.skip.skipLine)
      else if !single && ch = '\\' then
        match (c.at? 1).bind escapeOf with
        | none => malformed "found unknown escape character"
        | some (some e, _) => quotedWords single (acc ++ [e]) (c.skipN 2) fuel
        | some (none, width) => do
          let c := c.skipN 2
          let digits := (List.range width).map c.hexAt?
          if digits.any Option.isNone then malformed "did not find expected hexdecimal number"
          let value := digits.foldl (fun n d => 16 * n + d.getD 0) 0
          if (0xD800 ≤ value && value ≤ 0xDFFF) || value > 0x10FFFF then
            malformed "found invalid Unicode character escape code"
          quotedWords single (acc ++ [Char.ofNat value]) (c.skipN width) fuel
      else quotedWords single (acc ++ [ch]) c.skip fuel

/-- The rest of a quoted scalar after its opening quote, up to and past the closing quote. -/
def quotedRest (single : Bool) (acc : List Char) (c : Cursor) : Nat → Except Malformed (List Char × Cursor)
  | 0 => malformed "found unexpected end of stream"
  | fuel + 1 => do
    if c.atDocumentIndicator then malformed "found unexpected document indicator"
    if c.atEnd then malformed "found unexpected end of stream"
    let (acc, escapedBreak, c) ← quotedWords single acc c (c.rest.length + 1)
    if c.is 0 (if single then '\'' else '"') then pure (acc, c.skip)
    else
      let (gap, c) ← readGap none { broken := escapedBreak } c (c.rest.length + 1)
      quotedRest single (acc ++ gap.folded) c fuel

/-- A single- or double-quoted scalar. -/
def scanQuoted (single : Bool) (c : Cursor) : Except Malformed (Token × Cursor) := do
  let (value, c) ← quotedRest single [] c.skip (c.rest.length + 1)
  pure (.scalar (String.ofList value) (if single then .singleQuoted else .doubleQuoted), c)

/-- The words of a plain scalar on one line: up to a blank, a break, the end, `: ` and, inside
brackets, `,?[]{}`. -/
def plainWords (flowLevel : Nat) (acc : List Char) (c : Cursor) : Nat → List Char × Cursor
  | 0 => (acc, c)
  | fuel + 1 =>
    match c.at? 0 with
    | none => (acc, c)
    | some ch =>
      if isBlank ch || isBreak ch then (acc, c)
      else if (ch = ':' && c.blankzAt 1) || (flowLevel > 0 && [',', '?', '[', ']', '{', '}'].contains ch) then
        (acc, c)
      else plainWords flowLevel (acc ++ [ch]) c.skip fuel

/-- The rest of a plain scalar: words joined by their gaps, until a document indicator, a
comment, an indicator that ends it, or a line that starts left of `indent` in block context.
Gives the text, the cursor, and whether a line broke after the last word. -/
def plainRest (flowLevel : Nat) (indent : Int) (acc : List Char) (pending : Gap) (c : Cursor) :
    Nat → Except Malformed (List Char × Cursor × Bool)
  | 0 => pure (acc, c, pending.broken)
  | fuel + 1 => do
    if c.atDocumentIndicator || c.is 0 '#' then return (acc, c, pending.broken)
    let (words, c) := plainWords flowLevel [] c (c.rest.length + 1)
    let (acc, pending) := if words.isEmpty then (acc, pending) else (acc ++ pending.folded ++ words, {})
    if !(c.blankAt 0 || c.breakAt 0) then return (acc, c, pending.broken)
    let (pending, c) ← readGap (some indent) pending c (c.rest.length + 1)
    if flowLevel = 0 && (c.mark.column : Int) < indent then return (acc, c, pending.broken)
    plainRest flowLevel indent acc pending c fuel

/-- A plain scalar; also whether it ended after a line break. -/
def scanPlain (flowLevel : Nat) (indent : Int) (c : Cursor) : Except Malformed (Token × Cursor × Bool) := do
  let (value, c, broken) ← plainRest flowLevel (indent + 1) [] {} c (c.rest.length + 1)
  pure (.scalar (String.ofList value) .plain, c, broken)

/-- Skips the indentation and empty lines before a line of a block scalar, gathering the line
breaks. With no indentation yet (`indent` 0), spaces are skipped freely and the indentation
becomes the deepest column reached, at least one more than the enclosing `parentIndent` and at
least 1. -/
def blockBreaks (parentIndent : Int) (indent : Nat) (breaks : List Char) (deepest : Nat) (c : Cursor) :
    Nat → Except Malformed (Nat × List Char × Cursor)
  | 0 => pure (indent, breaks, c)
  | fuel + 1 => do
    let c := skipIndent c (c.rest.length + 1)
    let deepest := max deepest c.mark.column
    if (indent = 0 || c.mark.column < indent) && c.is 0 '\t' then
      malformed "found a tab character where an indentation space is expected"
    if !c.breakAt 0 then
      let indent := if indent = 0 then max (max deepest (parentIndent + 1).toNat) 1 else indent
      return (indent, breaks, c)
    let (c, brk) := c.readLine
    blockBreaks parentIndent indent (breaks ++ brk) deepest c fuel
where
  /-- Skips spaces while the column is left of the indentation, or freely before it is known. -/
  skipIndent (c : Cursor) : Nat → Cursor
    | 0 => c
    | fuel + 1 => if c.is 0 ' ' && (indent = 0 || c.mark.column < indent) then skipIndent c.skip fuel else c

/-- The lines of a block scalar at its indentation, joined: literal lines keep their breaks;
folded lines that neither start nor follow a line starting with a blank are joined by a space,
or by the line breaks between them when there are several. -/
def blockLines (literal : Bool) (parentIndent : Int) (indent : Nat) (acc : List Char)
    (leadingBreak trailingBreaks : List Char) (leadingBlank : Bool) (c : Cursor) :
    Nat → Except Malformed (List Char × List Char × List Char × Cursor)
  | 0 => pure (acc, leadingBreak, trailingBreaks, c)
  | fuel + 1 => do
    if c.mark.column ≠ indent || c.atEnd then return (acc, leadingBreak, trailingBreaks, c)
    let trailingBlank := c.blankAt 0
    let acc :=
      if !literal && !leadingBlank && !trailingBlank && leadingBreak.head? == some '\n' then
        if trailingBreaks.isEmpty then acc ++ [' '] else acc
      else acc ++ leadingBreak
    let acc := acc ++ trailingBreaks
    let leadingBlank := c.blankAt 0
    let (c, line) := c.readWhile fun _ => true
    let (c, brk) := c.readLine
    let (_, trailing, c) ← blockBreaks parentIndent indent [] 0 c (c.rest.length + 1)
    blockLines literal parentIndent indent (acc ++ line) brk trailing leadingBlank c fuel

/-- A literal (`|`) or folded (`>`) block scalar with its header: an optional chomping indicator
`+` or `-` and an optional indentation digit 1 to 9, in either order, then an optional comment
and the line break. -/
def scanBlock (literal : Bool) (parentIndent : Int) (c : Cursor) : Except Malformed (Token × Cursor) := do
  let c := c.skip
  let digit (c : Cursor) : Except Malformed (Option Nat × Cursor) :=
    match c.at? 0 with
    | some d =>
      if d.isDigit then
        if d = '0' then malformed "found an indentation indicator equal to 0"
        else pure (some (d.toNat - '0'.toNat), c.skip)
      else pure (none, c)
    | none => pure (none, c)
  let chomp (c : Cursor) : Option Int × Cursor :=
    if c.is 0 '+' then (some 1, c.skip) else if c.is 0 '-' then (some (-1), c.skip) else (none, c)
  let (chomping, increment, c) ← match chomp c with
    | (some ch, c) => do
      let (inc, c) ← digit c
      pure (ch, inc, c)
    | (none, c) => do
      let (inc, c) ← digit c
      let (ch, c) := if inc.isSome then chomp c else (none, c)
      pure (ch.getD 0, inc, c)
  let c := c.skipWhile isBlank
  let c := if c.is 0 '#' then c.skipComment else c
  if !c.breakzAt 0 then malformed "did not find expected comment or line break"
  let c := if c.breakAt 0 then c.skipLine else c
  let indent : Nat := match increment with
    | some inc => if parentIndent ≥ 0 then (parentIndent + inc).toNat else inc
    | none => 0
  let (indent, trailing, c) ← blockBreaks parentIndent indent [] 0 c (c.rest.length + 1)
  let (text, leadingBreak, trailing, c) ←
    blockLines literal parentIndent indent [] [] trailing false c (c.rest.length + 1)
  let text := if chomping ≠ -1 then text ++ leadingBreak else text
  let text := if chomping = 1 then text ++ trailing else text
  pure (.scalar (String.ofList text) (if literal then .literal else .folded), c)

/-! ## The scanner's state -/

namespace Scanner

/-- A scanner at the start of some text. -/
def start (input : List Char) : Scanner :=
  { cursor := ⟨input, ⟨0, 0, 0⟩, 0⟩, tokens := #[], parsed := 0, indent := -1, indents := [],
    flowLevel := 0, simpleKeyAllowed := false, simpleKeys := #[], keysByToken := [], started := false }

/-- Appends a token. -/
def append (s : Scanner) (t : Token) : Scanner := { s with tokens := s.tokens.push t }

/-- The depth of the innermost possible key. -/
def top (s : Scanner) : Nat := s.simpleKeys.size - 1

/-- Drops the possible key of the current depth; a required one is an error. -/
def removeSimpleKey (s : Scanner) : Except Malformed Scanner :=
  match s.simpleKeys[s.top]? with
  | some k =>
    if k.possible then
      if k.required then malformed "could not find expected ':'"
      else pure { s with
        simpleKeys := s.simpleKeys.set! s.top { k with possible := false },
        keysByToken := s.keysByToken.filter (·.1 ≠ k.tokenNumber) }
    else pure s
  | none => pure s

/-- Remembers the current place as a possible key, if a key may start here. -/
def saveSimpleKey (s : Scanner) : Except Malformed Scanner := do
  if !s.simpleKeyAllowed then return s
  let required := s.flowLevel = 0 && s.indent = (s.cursor.mark.column : Int)
  let key : SimpleKey := ⟨true, required, s.tokens.size, s.cursor.mark⟩
  let s ← s.removeSimpleKey
  pure { s with
    simpleKeys := s.simpleKeys.set! s.top key,
    keysByToken := (key.tokenNumber, s.top) :: s.keysByToken.filter (·.1 ≠ key.tokenNumber) }

/-- Whether the possible key at a depth is still a key: on the current line and within 1024
characters. A key that is no longer possible is dropped; a required one is an error. -/
def keyValid (s : Scanner) (i : Nat) : Except Malformed (Bool × Scanner) :=
  match s.simpleKeys[i]? with
  | none => pure (false, s)
  | some k =>
    if !k.possible then pure (false, s)
    else if k.mark.line < s.cursor.mark.line || k.mark.index + 1024 < s.cursor.mark.index then
      if k.required then malformed "could not find expected ':'"
      else pure (false, { s with simpleKeys := s.simpleKeys.set! i { k with possible := false } })
    else pure (true, s)

/-- Opens a bracket. -/
def increaseFlowLevel (s : Scanner) : Except Malformed Scanner :=
  if s.flowLevel ≥ 10000 then malformed "exceeded max depth of 10000"
  else pure { s with
    simpleKeys := s.simpleKeys.push ⟨false, false, 0, s.cursor.mark⟩,
    flowLevel := s.flowLevel + 1 }

/-- Closes a bracket, if one is open. -/
def decreaseFlowLevel (s : Scanner) : Scanner :=
  if s.flowLevel > 0 then
    let k := s.simpleKeys.back!
    { s with
      flowLevel := s.flowLevel - 1,
      keysByToken := s.keysByToken.filter (·.1 ≠ k.tokenNumber),
      simpleKeys := s.simpleKeys.pop }
  else s

/-- In block context, opens a collection at `column` when it lies right of the current
indentation, with its start token at position `at?` or at the end. -/
def rollIndent (s : Scanner) (column : Int) (at? : Option Nat) (t : Token) : Except Malformed Scanner :=
  if s.flowLevel > 0 || column ≤ s.indent then pure s
  else if s.indents.length ≥ 10000 then malformed "exceeded max depth of 10000"
  else
    let s := { s with indents := s.indent :: s.indents, indent := column }
    pure <| match at? with
      | some n => { s with tokens := s.tokens.insertIdxIfInBounds n t }
      | none => s.append t

/-- Block ends for the indentations right of `column`. -/
def unroll (column : Int) (tokens : Array Token) : Int → List Int → Array Token × Int × List Int
  | indent, [] => (tokens, indent, [])
  | indent, i :: is =>
    if indent > column then unroll column (tokens.push .blockEnd) i is else (tokens, indent, i :: is)

/-- In block context, closes the collections whose indentation lies right of `column`. -/
def unrollIndent (s : Scanner) (column : Int) : Scanner :=
  if s.flowLevel > 0 then s
  else
    let (tokens, indent, indents) := unroll column s.tokens s.indent s.indents
    { s with tokens, indent, indents }

/-- Skips blanks, comments and line breaks before the next token. A tab is skipped only inside
brackets or where no key may start; a line break in block context allows a key again. -/
def toNextToken (s : Scanner) : Nat → Scanner
  | 0 => s
  | fuel + 1 =>
    let c := s.cursor
    let c := if c.mark.column = 0 && c.is 0 '\uFEFF' then c.skip else c
    let c := c.skipWhile fun ch => ch = ' ' || ((s.flowLevel > 0 || !s.simpleKeyAllowed) && ch = '\t')
    let c := if c.is 0 '#' then c.comments else c
    if c.breakAt 0 then
      toNextToken { s with
        cursor := c.skipLine,
        simpleKeyAllowed := if s.flowLevel = 0 then true else s.simpleKeyAllowed } fuel
    else { s with cursor := c }

/-- The stream start. -/
def streamStart (s : Scanner) : Scanner :=
  { s with indent := -1, simpleKeyAllowed := true, simpleKeys := #[⟨false, false, 0, s.cursor.mark⟩],
           keysByToken := [], started := true }.append .streamStart

/-- The stream end: closes every block collection. -/
def streamEnd (s : Scanner) : Except Malformed Scanner := do
  let c := s.cursor
  let c := if c.mark.column ≠ 0 then { c with mark := { c.mark with column := 0, line := c.mark.line + 1 } } else c
  let s := { s with cursor := c }.unrollIndent (-1)
  let s ← s.removeSimpleKey
  pure ({ s with simpleKeyAllowed := false }.append .streamEnd)

/-- A directive or document indicator: closes every block collection first. -/
def documentLevel (s : Scanner) (token : Token) (c : Cursor) : Except Malformed Scanner := do
  let s := s.unrollIndent (-1)
  let s ← s.removeSimpleKey
  pure ({ s with simpleKeyAllowed := false, cursor := c }.append token)

/-- The token at a character that is not at the start of a document. -/
def content (s : Scanner) (ch : Char) : Except Malformed Scanner := do
  let c := s.cursor
  if ch = '[' || ch = '{' then
    let s ← s.saveSimpleKey
    let s ← s.increaseFlowLevel
    pure ({ s with simpleKeyAllowed := true, cursor := c.skip }.append
      (if ch = '[' then .flowSequenceStart else .flowMappingStart))
  else if ch = ']' || ch = '}' then
    let s ← s.removeSimpleKey
    let s := s.decreaseFlowLevel
    pure ({ s with simpleKeyAllowed := false, cursor := c.skip }.append
      (if ch = ']' then .flowSequenceEnd else .flowMappingEnd))
  else if ch = ',' then
    let s ← s.removeSimpleKey
    pure ({ s with simpleKeyAllowed := true, cursor := c.skip }.append .flowEntry)
  else if ch = '-' && c.blankzAt 1 then
    let s ← if s.flowLevel = 0 then do
        if !s.simpleKeyAllowed then malformed "block sequence entries are not allowed in this context"
        s.rollIndent c.mark.column none .blockSequenceStart
      else pure s
    let s ← s.removeSimpleKey
    pure ({ s with simpleKeyAllowed := true, cursor := c.skip }.append .blockEntry)
  else if ch = '?' && (s.flowLevel > 0 || c.blankzAt 1) then
    let s ← if s.flowLevel = 0 then do
        if !s.simpleKeyAllowed then malformed "mapping keys are not allowed in this context"
        s.rollIndent c.mark.column none .blockMappingStart
      else pure s
    let s ← s.removeSimpleKey
    pure ({ s with simpleKeyAllowed := s.flowLevel = 0, cursor := c.skip }.append .key)
  else if ch = ':' && (s.flowLevel > 0 || c.blankzAt 1) then
    let key := s.simpleKeys[s.top]?.getD default
    let (valid, s) ← s.keyValid s.top
    let s ← if valid then do
        let s := { s with tokens := s.tokens.insertIdxIfInBounds key.tokenNumber .key }
        let s ← s.rollIndent key.mark.column (some key.tokenNumber) .blockMappingStart
        pure { s with
          simpleKeys := s.simpleKeys.set! s.top { key with possible := false },
          keysByToken := s.keysByToken.filter (·.1 ≠ key.tokenNumber),
          simpleKeyAllowed := false }
      else do
        let s ← if s.flowLevel = 0 then do
            if !s.simpleKeyAllowed then malformed "mapping values are not allowed in this context"
            s.rollIndent c.mark.column none .blockMappingStart
          else pure s
        pure { s with simpleKeyAllowed := s.flowLevel = 0 }
    pure ({ s with cursor := s.cursor.skip }.append .value)
  else if ch = '*' || ch = '&' then
    let s ← s.saveSimpleKey
    let (t, c) ← scanAnchor (ch = '*') c
    pure ({ s with simpleKeyAllowed := false, cursor := c }.append t)
  else if ch = '!' then
    let s ← s.saveSimpleKey
    let (t, c) ← scanTag s.flowLevel c
    pure ({ s with simpleKeyAllowed := false, cursor := c }.append t)
  else if (ch = '|' || ch = '>') && s.flowLevel = 0 then
    let s ← s.removeSimpleKey
    let (t, c) ← scanBlock (ch = '|') s.indent c
    pure ({ s with simpleKeyAllowed := true, cursor := c }.append t)
  else if ch = '\'' || ch = '"' then
    let s ← s.saveSimpleKey
    let (t, c) ← scanQuoted (ch = '\'') c
    pure ({ s with simpleKeyAllowed := false, cursor := c }.append t)
  else if !(isBlank ch || isBreak ch || indicators.contains ch) ||
      (ch = '-' && !c.blankAt 1) ||
      (s.flowLevel = 0 && (ch = '?' || ch = ':') && !c.blankzAt 1) then
    let s ← s.saveSimpleKey
    let (t, c, broken) ← scanPlain s.flowLevel s.indent c
    pure ({ s with simpleKeyAllowed := broken, cursor := c }.append t)
  else malformed "found character that cannot start any token"

/-- Scans the next token. -/
def fetchNext (s : Scanner) : Except Malformed Scanner := do
  if !s.started then return s.streamStart
  let s := s.toNextToken (s.cursor.rest.length + 1)
  let s := s.unrollIndent s.cursor.mark.column
  let c := s.cursor
  match c.at? 0 with
  | none => s.streamEnd
  | some ch =>
    if c.mark.column = 0 && ch = '%' then
      let (t, c) ← scanDirective c
      s.documentLevel t c
    else if c.atDocumentIndicator then
      s.documentLevel (if ch = '-' then .documentStart else .documentEnd) (c.skipN 3)
    else
      let s ← s.content ch
      if s.tokens.back? == some .blockEntry then pure s
      else pure { s with cursor := s.cursor.lineComment }

/-- Scans until at least three tokens wait for the parser and the first of them cannot still
become a key. -/
def fetchMore (s : Scanner) : Nat → Except Malformed Scanner
  | 0 => malformed "the scanner did not settle"
  | fuel + 1 => do
    if s.waiting > 2 then
      match (s.keysByToken.find? (·.1 == s.parsed)).map (·.2) with
      | none => return s
      | some i =>
        let (valid, s) ← s.keyValid i
        if !valid then return s
        let s ← s.fetchNext
        fetchMore s fuel
    else
      let s ← s.fetchNext
      fetchMore s fuel

/-- The next token for the parser, scanning as far as needed. -/
def peek (s : Scanner) : Except Malformed (Token × Scanner) := do
  let s ← s.fetchMore (s.cursor.rest.length + 8)
  match s.tokens[s.parsed]? with
  | some t => pure (t, s)
  | none => malformed "no token"

/-- Takes the next token. -/
def next (s : Scanner) : Scanner := { s with parsed := s.parsed + 1 }

end Scanner

end MarketData.Yaml
