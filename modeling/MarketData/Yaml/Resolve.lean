import MarketData.Number.Nearest

/-!
What plain YAML scalars mean.

A plain scalar is read as null (empty, `~`, `null` in three spellings), a boolean (`true` and
`false` in three spellings), a float (`.nan`, `.inf`, `-.inf` and their spellings), an integer,
a float, a timestamp, or else as text. Which readings are tried depends on the first character:
a sign or digit allows numbers and timestamps, a dot allows a float, the letters of the
spelled-out words allow only those words, and anything else is text.

Numbers are read with underscores removed: an integer with a base prefix (`0x`, `0o`, `0b`, or a
leading `0` for octal) within the signed, then the unsigned 64-bit range; else a decimal float
`[-+]?(.d+|d+(.d*)?)([eE][-+]?d+)?` that is finite; else digits after `0b` or `0o` read in that
base. A timestamp is a date `YYYY-M-D`, optionally with a time `h:m:s`, a fraction, and a zone
`Z` or `±hh:mm`, in the four layouts accepted below.

A tag on a scalar asks for one reading: the scalar must then resolve to it, except that an
integer may be asked for as a float. Tags outside the core schema leave the text as it is.
-/

namespace MarketData.Yaml

/-- What a scalar resolves to. -/
inductive Scalar where
  /-- No value. -/
  | null
  /-- A boolean. -/
  | bool (b : Bool)
  /-- An integer in the signed 64-bit range. -/
  | int (n : Int)
  /-- An integer above the signed 64-bit range and within the unsigned one. -/
  | uint (n : Nat)
  /-- A binary64 value. -/
  | float (x : F64)
  /-- A timestamp; its text is kept. -/
  | timestamp
  /-- Text. -/
  | str

/-- The short tags of the core schema. -/
def strTag : String := "!!str"
/-- The tag of null. -/
def nullTag : String := "!!null"
/-- The tag of booleans. -/
def boolTag : String := "!!bool"
/-- The tag of integers. -/
def intTag : String := "!!int"
/-- The tag of floats. -/
def floatTag : String := "!!float"
/-- The tag of timestamps. -/
def timestampTag : String := "!!timestamp"
/-- The tag of base64 binary text. -/
def binaryTag : String := "!!binary"
/-- The tag of mappings. -/
def mapTag : String := "!!map"
/-- The tag of sequences. -/
def seqTag : String := "!!seq"
/-- The tag of merge keys. -/
def mergeTag : String := "!!merge"

/-- The short tag of a scalar's value. -/
def Scalar.tag : Scalar → String
  | .null => nullTag
  | .bool _ => boolTag
  | .int _ | .uint _ => intTag
  | .float _ => floatTag
  | .timestamp => timestampTag
  | .str => strTag

/-- A tag with the core schema's long prefix shortened to `!!`. -/
def shortTag (tag : String) : String :=
  match tag.dropPrefix? "tag:yaml.org,2002:" with
  | some rest => "!!" ++ rest.toString
  | none => tag

/-! ## Integers -/

/-- The value of a digit in a base. -/
def digitValue? (base : Nat) (c : Char) : Option Nat :=
  let d :=
    if '0' ≤ c ∧ c ≤ '9' then c.toNat - '0'.toNat
    else if 'a' ≤ c ∧ c ≤ 'z' then c.toNat - 'a'.toNat + 10
    else if 'A' ≤ c ∧ c ≤ 'Z' then c.toNat - 'A'.toNat + 10
    else 36
  if d < base then some d else none

/-- The number written by digits of a base; no digits read as 0. -/
def readBase (base : Nat) (cs : List Char) : Option Nat :=
  cs.foldlM (fun acc c => (digitValue? base c).map (acc * base + ·)) 0

/-- An unsigned integer below 2^64 whose base is given by its prefix: `0x`, `0o` or `0b` before
at least one digit, a leading `0` for octal, and decimal otherwise. -/
def readUnsigned (cs : List Char) : Option Nat :=
  let value := match cs with
    | [] => none
    | '0' :: c :: d :: rest =>
      if c = 'x' ∨ c = 'X' then readBase 16 (d :: rest)
      else if c = 'o' ∨ c = 'O' then readBase 8 (d :: rest)
      else if c = 'b' ∨ c = 'B' then readBase 2 (d :: rest)
      else readBase 8 (c :: d :: rest)
    | '0' :: rest => readBase 8 rest
    | _ => readBase 10 cs
  value.bind fun v => if v < Nat.pow 2 64 then some v else none

/-- A signed integer in the signed 64-bit range, its magnitude read by `unsigned`. -/
def readSignedWith (unsigned : List Char → Option Nat) (cs : List Char) : Option Int :=
  match cs with
  | '-' :: rest => (unsigned rest).bind fun v => if v ≤ Nat.pow 2 63 then some (-(v : Int)) else none
  | '+' :: rest => (unsigned rest).bind fun v => if v < Nat.pow 2 63 then some (v : Int) else none
  | _ => (unsigned cs).bind fun v => if v < Nat.pow 2 63 then some (v : Int) else none

/-- Digits of a fixed base, at least one, below 2^64. -/
def readFixedBase (base : Nat) (cs : List Char) : Option Nat :=
  if cs.isEmpty then none else (readBase base cs).bind fun v => if v < Nat.pow 2 64 then some v else none

/-! ## Floats -/

/-- Whether the underscores of a number each stand between two digits, or between a base prefix
and a digit. -/
def underscoresPlaced (cs : List Char) : Bool :=
  let cs := match cs with
    | '-' :: rest | '+' :: rest => rest
    | _ => cs
  let (hex, start, body) := match cs with
    | '0' :: c :: rest =>
      if c = 'x' ∨ c = 'X' then (true, '0', rest)
      else if c = 'b' ∨ c = 'B' ∨ c = 'o' ∨ c = 'O' then (false, '0', rest)
      else (false, '^', cs)
    | _ => (false, '^', cs)
  let isDigit (c : Char) : Bool :=
    ('0' ≤ c ∧ c ≤ '9') || (hex && (('a' ≤ c ∧ c ≤ 'f') || ('A' ≤ c ∧ c ≤ 'F')))
  let step (saw : Option Char) (c : Char) : Option Char :=
    saw.bind fun s =>
      if isDigit c then some '0'
      else if c = '_' then if s = '0' then some '_' else none
      else if s = '_' then none
      else some '!'
  match body.foldl step (some start) with
  | some s => s ≠ '_'
  | none => false

/-- The digits and decimal exponent of a decimal float `[-+]?(d*.d*)([eE][-+]?d+)?` with at
least one mantissa digit, underscores skipped. -/
def decimalParts (cs : List Char) : Option (Bool × Nat × Int) := do
  let (negative, cs) := match cs with
    | '-' :: rest => (true, rest)
    | '+' :: rest => (false, rest)
    | _ => (false, cs)
  let isDigit (c : Char) : Bool := '0' ≤ c ∧ c ≤ '9'
  let intPart := cs.takeWhile fun c => isDigit c || c = '_'
  let cs := cs.drop intPart.length
  let (fracPart, cs) := match cs with
    | '.' :: rest =>
      let f := rest.takeWhile fun c => isDigit c || c = '_'
      (f, rest.drop f.length)
    | _ => ([], cs)
  let digits := (intPart ++ fracPart).filter isDigit
  if digits.isEmpty then none
  let exponent ← match cs with
    | [] => some (0 : Int)
    | e :: rest =>
      if e = 'e' ∨ e = 'E' then
        let (sign, rest) := match rest with
          | '-' :: r => (-1, r)
          | '+' :: r => (1, r)
          | r => (1, r)
        match rest with
        | d :: _ =>
          if isDigit d && rest.all (fun c => isDigit c || c = '_') then
            some (sign * ((readBase 10 (rest.filter isDigit)).getD 0 : Int))
          else none
        | [] => none
      else none
  let value := (readBase 10 digits).getD 0
  pure (negative, value, exponent - (fracPart.filter isDigit).length)

/-- A decimal float as a finite binary64 value, the nearest one; refused when its syntax is
wrong, its underscores are misplaced, or it is too large. -/
def readFloat (cs : List Char) : Option F64 := do
  if cs.contains '_' && !underscoresPlaced cs then none
  let (negative, value, exponent) ← decimalParts cs
  Nearest.ofDecimal negative value exponent

/-- Whether a text has the shape `[-+]?(.d+|d+(.d*)?)([eE][-+]?d+)?`. -/
def isDecimalFloatShape (cs : List Char) : Bool :=
  let isDigit (c : Char) : Bool := '0' ≤ c ∧ c ≤ '9'
  let cs := match cs with
    | '-' :: rest | '+' :: rest => rest
    | _ => cs
  let intPart := cs.takeWhile isDigit
  let rest := cs.drop intPart.length
  let (ok, rest) := match rest with
    | '.' :: r =>
      let f := r.takeWhile isDigit
      (!intPart.isEmpty || !f.isEmpty, r.drop f.length)
    | r => (!intPart.isEmpty, r)
  ok && match rest with
    | [] => true
    | e :: r =>
      (e = 'e' ∨ e = 'E') &&
        let r := match r with
          | '-' :: x | '+' :: x => x
          | x => x
        !r.isEmpty && r.all isDigit

/-! ## Timestamps -/

/-- One or two digits at the front. -/
def shortNumber : List Char → Option (Nat × List Char)
  | a :: b :: rest =>
    if a.isDigit then
      if b.isDigit then some (10 * (a.toNat - 48) + (b.toNat - 48), rest) else some (a.toNat - 48, b :: rest)
    else none
  | [a] => if a.isDigit then some (a.toNat - 48, []) else none
  | [] => none

/-- Exactly two digits at the front. -/
def twoDigits : List Char → Option Nat
  | [a, b] => if a.isDigit && b.isDigit then some (10 * (a.toNat - 48) + (b.toNat - 48)) else none
  | _ => none

/-- The number of days of a month. -/
def daysIn (month year : Nat) : Nat :=
  if month = 2 then
    if year % 4 = 0 && (year % 100 ≠ 0 || year % 400 = 0) then 29 else 28
  else if month = 4 ∨ month = 6 ∨ month = 9 ∨ month = 11 then 30
  else 31

/-- A date `YYYY-M-D` at the front, checked for range, and what follows it. -/
def datePart (cs : List Char) : Option (List Char) := do
  let year ← readBase 10 (cs.take 4)
  if (cs.take 4).length < 4 then none
  let rest ← match cs.drop 4 with
    | '-' :: r => some r
    | _ => none
  let (month, rest) ← shortNumber rest
  let rest ← match rest with
    | '-' :: r => some r
    | _ => none
  let (day, rest) ← shortNumber rest
  if month < 1 || month > 12 || day < 1 || day > daysIn month year then none
  pure rest

/-- A time `h:m:s` with an optional fraction at the front, checked for range, and what follows. -/
def timePart (cs : List Char) : Option (List Char) := do
  let (hour, rest) ← shortNumber cs
  let rest ← match rest with
    | ':' :: r => some r
    | _ => none
  let (minute, rest) ← shortNumber rest
  let rest ← match rest with
    | ':' :: r => some r
    | _ => none
  let (second, rest) ← shortNumber rest
  if hour ≥ 24 || minute ≥ 60 || second ≥ 60 then none
  match rest with
  | p :: d :: r => if (p = '.' ∨ p = ',') && d.isDigit then some (r.dropWhile Char.isDigit) else some rest
  | _ => some rest

/-- A zone `Z` or `±hh:mm` that ends the text. -/
def zonePart : List Char → Bool
  | ['Z'] => true
  | [s, h1, h2, ':', m1, m2] =>
    (s = '+' ∨ s = '-') &&
      match twoDigits [h1, h2], twoDigits [m1, m2] with
      | some h, some m => h ≤ 24 && m ≤ 60
      | _, _ => false
  | _ => false

/-- Whether a text is a timestamp in one of the layouts `Y-M-DTh:m:s[.f]Z`, the same with a
lower-case `t`, `Y-M-D h:m:s[.f]` with one or more spaces, and `Y-M-D`. -/
def isTimestamp (cs : List Char) : Bool :=
  let leading := cs.takeWhile Char.isDigit
  if leading.length ≠ 4 || (cs.drop 4).head? ≠ some '-' then false
  else
    match datePart cs with
    | none => false
    | some [] => true
    | some (c :: rest) =>
      if c = 'T' ∨ c = 't' then
        match timePart rest with
        | some zone => zonePart zone
        | none => false
      else if c = ' ' then
        match timePart (rest.dropWhile (· = ' ')) with
        | some [] => true
        | _ => false
      else false

/-! ## Resolution -/

/-- The words whose spelling alone decides their meaning. -/
def spelled (text : String) : Option Scalar :=
  if text = "true" ∨ text = "True" ∨ text = "TRUE" then some (.bool true)
  else if text = "false" ∨ text = "False" ∨ text = "FALSE" then some (.bool false)
  else if text = "" ∨ text = "~" ∨ text = "null" ∨ text = "Null" ∨ text = "NULL" then some .null
  else if text = ".nan" ∨ text = ".NaN" ∨ text = ".NAN" then some (.float ⟨0x7FF8000000000001⟩)
  else if text = ".inf" ∨ text = ".Inf" ∨ text = ".INF" ∨ text = "+.inf" ∨ text = "+.Inf" ∨ text = "+.INF" then
    some (.float F64.inf)
  else if text = "-.inf" ∨ text = "-.Inf" ∨ text = "-.INF" then some (.float F64.inf.neg)
  else none

/-- The readings that a text's first character allows. -/
inductive Hint where
  /-- Only the spelled-out words. -/
  | word
  /-- A float after a dot. -/
  | dot
  /-- Numbers and timestamps. -/
  | number

/-- The hint of a first character, if any reading other than text is possible. -/
def hintOf (c : Char) : Option Hint :=
  if c = '+' ∨ c = '-' ∨ c.isDigit then some .number
  else if c = '.' then some .dot
  else if ['y', 'Y', 'n', 'N', 't', 'T', 'f', 'F', 'o', 'O', '~'].contains c then some .word
  else none

/-- The meaning of a number-like text: integer, unsigned integer, float, or digits after `0b`
or `0o`; a timestamp is tried first when `timestamps` is set. -/
def numberMeaning (timestamps : Bool) (text : String) : Scalar :=
  let plain := text.toList.filter (· ≠ '_')
  if timestamps && isTimestamp text.toList then .timestamp
  else match readSignedWith readUnsigned plain with
    | some n => .int n
    | none =>
      match readUnsigned plain with
      | some n => .uint n
      | none =>
        match (if isDecimalFloatShape plain then readFloat plain else none) with
        | some x => .float x
        | none =>
          match plain with
          | '0' :: 'b' :: rest =>
            match readSignedWith (readFixedBase 2) rest with
            | some n => .int n
            | none => (readFixedBase 2 rest).elim .str .uint
          | '-' :: '0' :: 'b' :: rest =>
            (readSignedWith (readFixedBase 2) ('-' :: rest)).elim .str .int
          | '0' :: 'o' :: rest =>
            match readSignedWith (readFixedBase 8) rest with
            | some n => .int n
            | none => (readFixedBase 8 rest).elim .str .uint
          | '-' :: '0' :: 'o' :: rest =>
            (readSignedWith (readFixedBase 8) ('-' :: rest)).elim .str .int
          | _ => .str

/-- The meaning of a text with no tag, or with the tags that allow timestamps to be tried. -/
def meaning (timestamps : Bool) (text : String) : Scalar :=
  match text.toList with
  | [] => .null
  | c :: _ =>
    match hintOf c with
    | none => .str
    | some hint =>
      match spelled text with
      | some s => s
      | none =>
        match hint with
        | .word => .str
        | .dot => (readFloat text.toList).elim .str .float
        | .number => numberMeaning timestamps text

/-- The meaning of a plain scalar without a tag. -/
def resolvePlain (text : String) : Scalar := meaning true text

/-- Whether a tag is one of the core schema's scalar tags, or no tag. -/
def resolvableTag (tag : String) : Bool :=
  tag = "" ∨ tag = strTag ∨ tag = boolTag ∨ tag = intTag ∨ tag = floatTag ∨ tag = nullTag ∨
    tag = timestampTag

/-- The tag and meaning of a scalar's text under a tag, or `none` when the text cannot have the
meaning the tag asks for. Tags outside the core schema keep the text. -/
def resolve (tag text : String) : Option (String × Scalar) :=
  let tag := shortTag tag
  if !resolvableTag tag then some (tag, .str)
  else
    let found : Scalar :=
      if tag = strTag then .str else meaning (tag = "" ∨ tag = timestampTag) text
    if tag = "" ∨ tag = found.tag ∨ tag = strTag then some (found.tag, found)
    else if tag = floatTag then
      match found with
      | .int n => (Nearest.ofDecimal (n < 0) n.natAbs 0).map fun x => (floatTag, .float x)
      | _ => none
    else none

/-- Whether a text is a base-60 float of the older YAML, as in `1:20` or `-3:25:45.5`. -/
def isBase60Float (text : String) : Bool :=
  let cs := text.toList
  let isDigit (c : Char) : Bool := '0' ≤ c ∧ c ≤ '9'
  let body := match cs with
    | '-' :: r | '+' :: r => r
    | r => r
  match body with
  | [] => false
  | d :: rest =>
    if !isDigit d || !cs.contains ':' then false
    else
      let rest := rest.dropWhile fun c => isDigit c || c = '_'
      -- one or more groups `:` followed by one or two digits, the first of them 0 to 5
      let rec groups (fuel : Nat) (seen : Bool) (r : List Char) : Bool :=
        match fuel with
        | 0 => false
        | fuel + 1 =>
          match r with
          | ':' :: a :: b :: more =>
            if isDigit a && isDigit b && a ≤ '5' then groups fuel true more
            else if isDigit a then groups fuel true (b :: more)
            else false
          | [':', a] => isDigit a
          | '.' :: more => seen && more.all fun c => isDigit c || c = '_'
          | [] => seen
          | _ => false
      groups (rest.length + 1) false rest

/-- Whether a text is a boolean of the older YAML: `y`, `yes`, `on`, `n`, `no`, `off` in their
usual spellings. -/
def isOldBool (text : String) : Bool :=
  ["y", "Y", "yes", "Yes", "YES", "on", "On", "ON", "n", "N", "no", "No", "NO", "off", "Off", "OFF"].contains text

end MarketData.Yaml
