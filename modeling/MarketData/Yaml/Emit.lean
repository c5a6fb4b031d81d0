import MarketData.Yaml.Scanner
import MarketData.Yaml.Resolve

/-!
Writing text as YAML scalars in block context.

Text is written plain when it reads back as the same text and nothing in it stops a plain
scalar; else in single quotes when they can hold it; else in double quotes with escapes. Text
with a line feed is written as a literal block, unless its spaces and breaks cannot be kept
there. Lines are never folded.

`Scan` holds what decides the choice: indicators at the start or inside, blanks and breaks at
the ends, spaces next to breaks, tabs, and characters that must be escaped.

A `Sheet` is a document being written line by line, with the keys, sequence entries and scalars
of a block collection at given indentations.
-/

namespace MarketData.Yaml

/-- Whether a character may be written as it is: line feed, printable ASCII, and the rest of
the Basic Multilingual Plane from U+00A0 except surrogates, the byte order mark, U+FFFE and
U+FFFF. -/
def isPrintable (c : Char) : Bool :=
  let n := c.toNat
  n = 0x0A || (0x20 ≤ n && n ≤ 0x7E) || (0xA0 ≤ n && n ≤ 0xD7FF) ||
    (0xE000 ≤ n && n ≤ 0xFFFD && n ≠ 0xFEFF)

/-- What a text allows as a scalar. -/
structure Scan where
  /-- Whether it has a line break. -/
  multiline : Bool
  /-- Whether it may be plain in block context. -/
  blockPlain : Bool
  /-- Whether it may be single-quoted. -/
  singleQuoted : Bool
  /-- Whether it may be a block scalar. -/
  block : Bool

/-- The facts about a text that decide how it may be written. -/
structure Traits where
  blockIndicators : Bool := false
  lineBreaks : Bool := false
  special : Bool := false
  tabs : Bool := false
  leadingSpace : Bool := false
  leadingBreak : Bool := false
  trailingSpace : Bool := false
  trailingBreak : Bool := false
  breakSpace : Bool := false
  spaceBreak : Bool := false

/-- Gathers the traits of the characters of a text, given whether a blank or break precedes the
first of them, and whether the previous one was a space or a break. -/
def gather (t : Traits) (first : Bool) (precededByBlank previousSpace previousBreak : Bool) :
    List Char → Traits
  | [] => t
  | c :: rest =>
    let followedByBlank := match rest with
      | [] => true
      | d :: _ => isBlank d
    let indicators :=
      if first then
        if indicators.contains c && !(c = '-' || c = '?' || c = ':') then true
        else if c = '?' || c = ':' || c = '-' then followedByBlank
        else false
      else (c = ':' && followedByBlank) || (c = '#' && precededByBlank)
    let t := { t with blockIndicators := t.blockIndicators || indicators }
    let t := if c = '\t' then { t with tabs := true }
      else if !isPrintable c then { t with special := true } else t
    let last := rest.isEmpty
    let (t, space, brk) :=
      if c = ' ' then
        ({ t with leadingSpace := t.leadingSpace || first, trailingSpace := t.trailingSpace || last,
                  breakSpace := t.breakSpace || previousBreak }, true, false)
      else if isBreak c then
        ({ t with lineBreaks := true, leadingBreak := t.leadingBreak || first,
                  trailingBreak := t.trailingBreak || last, spaceBreak := t.spaceBreak || previousSpace },
          false, true)
      else (t, false, false)
    gather t false (isBlank c || isBreak c || c = '\x00') space brk rest

/-- What a text allows as a scalar. -/
def Scan.of (s : String) : Scan :=
  let cs := s.toList
  if cs.isEmpty then ⟨false, true, true, false⟩
  else
    let docMark := cs.take 3 = ['-', '-', '-'] || cs.take 3 = ['.', '.', '.']
    let t := gather {} true true false false cs
    let noPlainEnds := t.leadingSpace || t.leadingBreak || t.trailingSpace || t.trailingBreak
    let blockPlain := !(noPlainEnds || t.breakSpace || t.spaceBreak || t.tabs || t.special ||
      t.lineBreaks || t.blockIndicators || docMark)
    let singleQuoted := !(t.breakSpace || t.spaceBreak || t.tabs || t.special)
    let block := !(t.trailingSpace || t.spaceBreak || t.special)
    ⟨t.lineBreaks, blockPlain, singleQuoted, block⟩

/-- Whether text written plain reads back as the same text: it resolves to text, and is neither
a sexagesimal number nor an old-style boolean. -/
def readsAsText (s : String) : Bool :=
  (resolvePlain s).tag = strTag && !isBase60Float s && !isOldBool s

/-- How a text is written as a scalar in block context. -/
def styleOf (s : String) : ScalarStyle :=
  let scan := Scan.of s
  if s.toList.contains '\n' then (if scan.block then .literal else .doubleQuoted)
  else if readsAsText s then
    if scan.blockPlain then .plain
    else if scan.singleQuoted then .singleQuoted
    else .doubleQuoted
  else .doubleQuoted

/-- The uppercase hexadecimal digits of a number, `width` of them. -/
def hexDigits (width n : Nat) : List Char :=
  (List.range width).reverse.map fun k => Nat.toDigits 16 (n / Nat.pow 16 k % 16) |>.head!.toUpper

/-- The escape of a character in double quotes. -/
def escape (c : Char) : List Char :=
  match c with
  | '\x00' => ['\\', '0']
  | '\x07' => ['\\', 'a']
  | '\x08' => ['\\', 'b']
  | '\t' => ['\\', 't']
  | '\n' => ['\\', 'n']
  | '\x0b' => ['\\', 'v']
  | '\x0c' => ['\\', 'f']
  | '\r' => ['\\', 'r']
  | '\x1b' => ['\\', 'e']
  | '"' => ['\\', '"']
  | '\\' => ['\\', '\\']
  | '\x85' => ['\\', 'N']
  | '\xa0' => ['\\', '_']
  | '\u2028' => ['\\', 'L']
  | '\u2029' => ['\\', 'P']
  | _ =>
    let n := c.toNat
    if n ≤ 0xFF then '\\' :: 'x' :: hexDigits 2 n
    else if n ≤ 0xFFFF then '\\' :: 'u' :: hexDigits 4 n
    else '\\' :: 'U' :: hexDigits 8 n

/-- A text in double quotes. -/
def doubleQuoted (s : String) : String :=
  let body := s.toList.flatMap fun c =>
    if !isPrintable c || c = '\uFEFF' || isBreak c || c = '"' || c = '\\' then escape c else [c]
  "\"" ++ String.ofList body ++ "\""

/-- The characters of a quoted or block text: a line feed starting a run of breaks gets an extra
one in single quotes (`doubleFeed`); a non-break after breaks starts with the indentation; a
quote is doubled in single quotes. -/
def quotedBody (indent : Nat) (doubleFeed : Bool) : Bool → List Char → List Char
  | _, [] => []
  | breaks, c :: rest =>
    if isBreak c then
      (if doubleFeed && !breaks && c = '\n' then ['\n'] else []) ++ c :: quotedBody indent doubleFeed true rest
    else
      (if breaks then List.replicate indent ' ' else []) ++
        (if doubleFeed && c = '\'' then ['\'', '\''] else [c]) ++ quotedBody indent doubleFeed false rest

/-- A text in single quotes, with its continuation lines at `indent`. A text that ends in a
break has its closing quote on the next line, at `indent` too. -/
def singleQuoted (indent : Nat) (s : String) : String :=
  let closing := match s.toList.getLast? with
    | some c => if isBreak c then List.replicate indent ' ' else []
    | none => []
  "'" ++ String.ofList (quotedBody indent true false s.toList ++ closing) ++ "'"

/-- The chomping indicator of a literal: `-` when it does not end in a break, `+` when it is a
single break or ends in two, else none. -/
def chomping (s : String) : String :=
  match s.toList.reverse with
  | [] => "-"
  | c :: rest =>
    if !isBreak c then "-"
    else match rest with
      | [] => "+"
      | d :: _ => if isBreak d then "+" else ""

/-- A literal block: its header, with an indentation hint when the text starts with a space or
a break, then its lines at `indent`. -/
def literal (indent : Nat) (s : String) : String :=
  let hint := match s.toList with
    | c :: _ => if c = ' ' || isBreak c then "2" else ""
    | [] => ""
  "|" ++ hint ++ chomping s ++ "\n" ++ String.ofList (quotedBody indent false true s.toList)

/-- A YAML document being written. -/
structure Sheet where
  /-- The text so far. -/
  out : String
  /-- Whether the text ends at the start of a line. -/
  lineStart : Bool
  /-- Whether the last block scalar kept all its trailing breaks, so that the document needs
  an end marker. -/
  openEnded : Bool

namespace Sheet

/-- An empty sheet. -/
def empty : Sheet := ⟨"", true, false⟩

/-- Ends the current line unless it is empty. -/
def newline (sh : Sheet) : Sheet := if sh.lineStart then sh else ⟨sh.out ++ "\n", true, sh.openEnded⟩

/-- A key of a block mapping at an indentation. -/
def key (sh : Sheet) (indent : Nat) (k : String) : Sheet :=
  let sh := sh.newline
  { sh with out := sh.out ++ String.ofList (List.replicate indent ' ') ++ k ++ ":", lineStart := false }

/-- An entry of a block sequence at an indentation, starting with a key of its mapping. -/
def entryKey (sh : Sheet) (indent : Nat) (k : String) : Sheet :=
  let sh := sh.newline
  { sh with out := sh.out ++ String.ofList (List.replicate indent ' ') ++ "- " ++ k ++ ":", lineStart := false }

/-- An entry of a block sequence at an indentation holding a plain word. -/
def entryWord (sh : Sheet) (indent : Nat) (w : String) : Sheet :=
  let sh := sh.newline
  { sh with out := sh.out ++ String.ofList (List.replicate indent ' ') ++ "- " ++ w, lineStart := false }

/-- A plain word after a key. -/
def word (sh : Sheet) (w : String) : Sheet := { sh with out := sh.out ++ " " ++ w, lineStart := false }

/-- A text after a key, in the style it needs, its lines at `indent`. -/
def text (sh : Sheet) (indent : Nat) (s : String) : Sheet :=
  match styleOf s with
  | .plain => sh.word s
  | .singleQuoted =>
    let body := singleQuoted indent s
    ⟨sh.out ++ " " ++ body, false, sh.openEnded⟩
  | .literal =>
    let body := literal indent s
    let ends := match s.toList.getLast? with
      | some c => isBreak c
      | none => false
    ⟨sh.out ++ " " ++ body, ends, chomping s = "+"⟩
  | _ => sh.word (doubleQuoted s)

/-- The finished document: its last line ended, and an end marker when it is open. -/
def finish (sh : Sheet) : String :=
  let sh := sh.newline
  if sh.openEnded then sh.out ++ "...\n" else sh.out

end Sheet

end MarketData.Yaml
