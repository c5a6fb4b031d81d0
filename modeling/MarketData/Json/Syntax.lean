import MarketData.Json.Lexer

/-!
JSON values as text.

Readers that take a value apart as they go still need to know where a value ends: a number by
the grammar `-?(0|[1-9][0-9]*)(.[0-9]+)?([eE][+-]?[0-9]+)?`, the literals `null`, `true` and
`false` by their letters, a string by its closing quote, and arrays and objects by their
brackets, with blanks allowed between tokens and no comma before a closing bracket. A value that
does not end well is refused.

Integers are read the stricter way of typed fields: an optional minus sign and digits with no
leading zero, stopping at the first other byte, which may not be a point or an exponent mark.
-/

namespace MarketData.Json

/-- The digits at the head of the text and the rest. -/
def spanDigits (b : Bytes) : Bytes × Bytes := (b.takeWhile Bytes.isAsciiDigit, b.dropWhile Bytes.isAsciiDigit)

/-- The minus sign at the head of a number, if any, and the rest. -/
def signPart (b : Bytes) : Bytes × Bytes :=
  match b with
  | 0x2D :: rest => ([(0x2D : UInt8)], rest)
  | _ => ([], b)

/-- The integer digits of a number: a lone zero, or digits not starting with zero. -/
def wholePart? (b : Bytes) : Option (Bytes × Bytes) :=
  match b with
  | 0x30 :: rest => some ([0x30], rest)
  | d :: _ => if Bytes.isAsciiDigit d then some (spanDigits b) else none
  | [] => none

/-- A point and at least one digit, or nothing. -/
def fractionPart? (b : Bytes) : Option (Bytes × Bytes) :=
  match b with
  | 0x2E :: more =>
    let (ds, after) := spanDigits more
    if ds.isEmpty then none else some (0x2E :: ds, after)
  | _ => some ([], b)

/-- An exponent mark, an optional sign and at least one digit, or nothing. -/
def exponentPart? (b : Bytes) : Option (Bytes × Bytes) :=
  match b with
  | e :: more =>
    if e == 0x65 || e == 0x45 then
      let (signPart, digitsAt) := match more with
        | s :: after => if s == 0x2B || s == 0x2D then ([s], after) else ([], more)
        | [] => ([], more)
      let (ds, after) := spanDigits digitsAt
      if ds.isEmpty then none else some (e :: signPart ++ ds, after)
    else some ([], b)
  | [] => some ([], b)

/-- A number token at the head of the text, and the rest. -/
def numberToken? (b : Bytes) : Option (Bytes × Bytes) := do
  let (sign, afterSign) := signPart b
  let (intPart, rest) ← wholePart? afterSign
  let (fracPart, rest) ← fractionPart? rest
  let (expPart, after) ← exponentPart? rest
  pure (sign ++ intPart ++ fracPart ++ expPart, after)

/-- The text after a literal word at its head. -/
def afterWord? (word : String) (b : Bytes) : Option Bytes := Bytes.stripPrefix? (Bytes.ofString word) b

mutual

/-- The text after the value at its head; `fuel` bounds the nesting. -/
def skipValue? : Nat → Bytes → Option Bytes
  | 0, _ => none
  | fuel + 1, b =>
    match b with
    | 0x7B :: rest => skipMembers? fuel true (skipSpace rest)
    | 0x5B :: rest => skipItems? fuel true (skipSpace rest)
    | 0x22 :: _ => (readString? b).map (·.2)
    | 0x6E :: _ => afterWord? "null" b
    | 0x74 :: _ => afterWord? "true" b
    | 0x66 :: _ => afterWord? "false" b
    | _ => (numberToken? b).map (·.2)

/-- The text after the members of an object and its closing brace. -/
def skipMembers? : Nat → Bool → Bytes → Option Bytes
  | 0, _, _ => none
  | fuel + 1, first, b =>
    match b with
    | 0x7D :: rest => if first then some rest else none
    | _ => do
      let (_, rest) ← readString? b
      let rest ← match skipSpace rest with
        | 0x3A :: more => some (skipSpace more)
        | _ => none
      let rest ← skipValue? fuel rest
      match skipSpace rest with
      | 0x2C :: more => skipMembers? fuel false (skipSpace more)
      | 0x7D :: more => some more
      | _ => none

/-- The text after the elements of an array and its closing bracket. -/
def skipItems? : Nat → Bool → Bytes → Option Bytes
  | 0, _, _ => none
  | fuel + 1, first, b =>
    match b with
    | 0x5D :: rest => if first then some rest else none
    | _ => do
      let rest ← skipValue? fuel b
      match skipSpace rest with
      | 0x2C :: more => skipItems? fuel false (skipSpace more)
      | 0x5D :: more => some more
      | _ => none

end

/-- The value at the head of the text, as its bytes, and the text after it. -/
def valueToken? (b : Bytes) : Option (Bytes × Bytes) :=
  (skipValue? (b.length + 1) b).map fun rest => (b.take (b.length - rest.length), rest)

/-- Whether the text starts with the letters `null`. -/
def startsWithNull (b : Bytes) : Bool := (afterWord? "null" b).isSome

/-- An integer field's digits at the head of the text: the value read with an optional minus
sign, and the rest. A leading zero before another digit, no digits at all, and a point or an
exponent mark after the digits are refused. -/
def integerToken? (b : Bytes) : Option (Int × Bytes) :=
  let (negative, rest) := match b with
    | 0x2D :: more => (true, more)
    | _ => (false, b)
  let (ds, after) := spanDigits rest
  let leadingZero := match ds with
    | 0x30 :: _ :: _ => true
    | _ => false
  if ds.isEmpty || leadingZero then none
  else
    match after with
    | c :: _ => if c == 0x2E || c == 0x65 || c == 0x45 then none else some (value negative ds, after)
    | [] => some (value negative ds, after)
where
  /-- The signed value of decimal digits. -/
  value (negative : Bool) (ds : Bytes) : Int :=
    let n : Nat := ds.foldl (fun acc d => acc * 10 + (d.toNat - 0x30)) 0
    if negative then -(n : Int) else n

end MarketData.Json
