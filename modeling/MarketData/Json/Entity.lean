import MarketData.Json.Document
import MarketData.Json.Syntax
import MarketData.Market.Entity
import MarketData.Number.Nearest

/-!
Entities as JSON.

An entity is written as an object of its layout's keys in identifier order. Text is a string, an
integer or word a number, a float a number in the shortest notation (NaN and the infinities
cannot be written), an amount a decimal string, an ordinal its name or, when the enumeration has
no such member, its number. A pair, a depth reading, a book and a header are objects of their
fields; a side is `null` when not supplied and otherwise an array of price and quantity objects;
an absent optional value is `null`.

Reading takes the text as it comes, replacing fields in place:

* a key names the field whose key equals it after case folding (an ASCII key is lowercased; in
  any other key every character is folded once, so `ſ` stands for `s` and the Kelvin sign for
  `k`); unknown keys are skipped, a repeated key is read again over the earlier value;
* `null` leaves a text, number, amount, pair, depth, book or header as it was, makes a side not
  supplied and an optional value absent, and is no ordinal;
* integers must be whole and in range, words may not be negative, floats must be finite;
* amounts and ordinals are read from the text of their value by their own rules, and their
  failures are kept as they are, unless the object they stand in is no well-formed JSON;
* text must be a whole object with nothing but blanks after it.

Every other failure is the generic `malformedPayload` failure `json`. Empty sides read back as
not supplied.
-/

namespace MarketData.Json

/-! ## Writing -/

/-- The failure of a value that JSON cannot hold. -/
def unwritable : Failure := .coded .rangeExceeded "json"

/-- A float as a JSON number; NaN and the infinities cannot be written. -/
def floatDocument (x : F64) : Except Failure Document :=
  if x.isFinite then .ok (.number (floatNotation.render x)) else .error unwritable

/-- A side: `null` when not supplied, else its levels. -/
def levelsDocument (l : Levels) : Except Failure Document :=
  match l with
  | none => .ok .null
  | some xs => do
    let items ← xs.mapM fun x => do
      pure (Document.object [("price", ← floatDocument x.price), ("quantity", ← floatDocument x.quantity)])
    pure (.array items)

/-- The document of a value of a shape. -/
def encodeValue : (s : Shape) → s.Value → Except Failure Document
  | .text, v => .ok (.string v)
  | .int, v => .ok (.int v.toInt)
  | .word, v => .ok (.nat v.toNat)
  | .float, v => floatDocument v
  | .amount, v => .ok (.text v.render)
  | .ordinal _, v => .ok (match v.name? with
    | some n => .text n
    | none => .nat v.val.toNat)
  | .pair, v => .ok (.object [("base", .string v.base), ("quote", .string v.quote)])
  | .depth, v => do
    pure (.object [("percentage", ← floatDocument v.percentage), ("bid", ← floatDocument v.bid),
      ("ask", ← floatDocument v.ask)])
  | .book, v => do
    pure (.object [("update_id", .nat v.updateId.toNat), ("bids", ← levelsDocument v.bids),
      ("asks", ← levelsDocument v.asks)])
  | .header, v => .ok (.object [("timestamp", .int v.timestamp.toInt), ("source", .string v.source),
      ("publisher", .string v.publisher)])
  | .levels, v => levelsDocument v
  | .optional _, none => .ok .null
  | .optional s, some v => encodeValue s v

/-- The document of a value under a layout. -/
def encodeSlots {α : Type} (layout : List (Slot α)) (a : α) : Except Failure Document := do
  let members ← layout.mapM fun slot => do pure (slot.key, ← encodeValue slot.shape (slot.get a))
  pure (.object members)

/-- The JSON text of an entity, indented by `indent` when it is not empty. -/
def encode (indent : String) (e : Entity) : Except Failure String := do
  pure ((← encodeSlots e.kind.layout e.value).render indent)

/-! ## Reading -/

/-- Why reading failed: the text is not of the expected form, or a field's own reader failed. -/
inductive ReadError where
  /-- Not JSON of the expected form. -/
  | malformed
  /-- A field's own reader failed. -/
  | field (f : Failure)

/-- A reader of the front of the text. -/
abbrev Reader := StateT Bytes (Except ReadError)

/-- Fails as not JSON of the expected form. -/
def refuse {α : Type} : Reader α := throw .malformed

/-- Runs a partial reader of the front of the text. -/
def expect {α : Type} (r : Bytes → Option (α × Bytes)) : Reader α := do
  match r (← get) with
  | some (a, rest) => set rest; pure a
  | none => refuse

/-- Skips blanks. -/
def blanks : Reader Unit := modify skipSpace

/-- Takes the literal `null` if it comes next. -/
def takeNull : Reader Bool := do
  let b ← get
  if startsWithNull b then set (b.drop 4); pure true else pure false

/-- Takes one byte if it is the given one. -/
def takeByte (c : UInt8) : Reader Bool := do
  match (← get) with
  | x :: rest => if x == c then set rest; pure true else pure false
  | [] => pure false

/-- The character a key character is compared as, in a key that is not all ASCII: the
character after it in its case orbit, lowercased if that is an ASCII capital. -/
def foldKeyChar (c : Char) : Char :=
  if c = 's' then Char.ofNat 0x17F
  else if c = 'k' then Char.ofNat 0x212A
  else if c.toNat = 0x17F then 's'
  else if c.toNat = 0x212A then 'k'
  else if c.toNat < 0x80 then c.toLower
  else c

/-- The text a key is compared with field keys as. -/
def foldKey (key : Bytes) : List Char :=
  if key.isAscii then key.map fun b => (Char.ofNat b.toNat).toLower
  else (Utf8.runes key).map foldKeyChar

/-- One field of an object being read: its key and how it reads its value into the whole. -/
abbrev Member (σ : Type) := String × (σ → Reader σ)

/-- Reads an object into a value, starting from `init`; `null` leaves the value as it was. -/
def readObject {σ : Type} (members : List (Member σ)) (init : σ) : Reader σ := do
  if ← takeNull then return init
  let input ← get
  unless ← takeByte 0x7B do refuse
  loop input (input.length + 1) true init
where
  /-- Reads members up to the closing brace. -/
  loop (input : Bytes) : Nat → Bool → σ → Reader σ
    | 0, _, _ => refuse
    | fuel + 1, first, acc => do
      blanks
      if ← takeByte 0x7D then return acc
      unless first do
        unless ← takeByte 0x2C do refuse
        blanks
      let key ← expect readString?
      blanks
      unless ← takeByte 0x3A do refuse
      blanks
      match members.find? (fun m => m.1.toList == foldKey key) with
      | none =>
        let _ ← expect valueToken?
        loop input fuel false acc
      | some (_, read) =>
        let acc ← tryCatch (read acc) fun e => match e with
          | .malformed => refuse
          | .field f => if (skipValue? (input.length + 1) input).isSome then throw (.field f) else refuse
        loop input fuel false acc

/-- Reads text; `null` keeps the old value. -/
def readText (old : Bytes) : Reader Bytes := do
  if ← takeNull then pure old else expect readString?

/-- Reads an integer in the range of 64-bit signed integers; `null` keeps the old value. -/
def readInt (old : Int64) : Reader Int64 := do
  if ← takeNull then return old
  let n ← expect integerToken?
  if -Int.pow 2 63 ≤ n && n < Int.pow 2 63 then pure (Int64.ofInt n) else refuse

/-- Reads an unsigned integer below 2^64; `null` keeps the old value. -/
def readWord (old : UInt64) : Reader UInt64 := do
  if ← takeNull then return old
  if (← get).head? == some 0x2D then refuse
  let n ← expect integerToken?
  if 0 ≤ n && n < Int.pow 2 64 then pure n.toNat.toUInt64 else refuse

/-- The digits and exponent `(c, k)` of a number token `c · 10^k`, and its sign. -/
def decimalOfToken (token : Bytes) : Bool × Nat × Int :=
  let (negative, rest) := match token with
    | 0x2D :: more => (true, more)
    | _ => (false, token)
  let (mantissa, expPart) := (rest.takeWhile (fun b => b != 0x65 && b != 0x45),
    rest.dropWhile (fun b => b != 0x65 && b != 0x45))
  let intDigits := mantissa.takeWhile (· != 0x2E)
  let fracDigits := (mantissa.dropWhile (· != 0x2E)).drop 1
  let digitsValue := fun (ds : Bytes) => ds.foldl (fun (acc : Nat) d => acc * 10 + (d.toNat - 0x30)) 0
  let exponent : Int := match expPart.drop 1 with
    | 0x2D :: ds => -(digitsValue ds : Int)
    | 0x2B :: ds => digitsValue ds
    | ds => digitsValue ds
  (negative, digitsValue (intDigits ++ fracDigits), exponent - fracDigits.length)

/-- Reads a finite float; `null` keeps the old value. -/
def readFloat (old : F64) : Reader F64 := do
  if ← takeNull then return old
  let token ← expect numberToken?
  let (negative, c, k) := decimalOfToken token
  match Nearest.ofDecimal negative c k with
  | some x => pure x
  | none => refuse

/-- Lifts a field's own reader of the text of a value. -/
def readRaw {α : Type} (parse : Bytes → Except Failure α) : Reader α := do
  let raw ← expect valueToken?
  match parse raw with
  | .ok a => pure a
  | .error f => throw (.field f)

/-- The members of a level. -/
def levelMembers : List (Member Level) :=
  [("price", fun l => do pure { l with price := ← readFloat l.price }),
   ("quantity", fun l => do pure { l with quantity := ← readFloat l.quantity })]

/-- Reads a side: `null` is not supplied; the i-th element is read over the i-th old level. -/
def readLevels (old : Levels) : Reader Levels := do
  if ← takeNull then return none
  unless ← takeByte 0x5B do refuse
  let olds := old.toList
  let rec items : Nat → Nat → Bool → List Level → Reader (List Level)
    | 0, _, _, _ => refuse
    | fuel + 1, i, first, acc => do
      blanks
      if ← takeByte 0x5D then return acc.reverse
      unless first do
        unless ← takeByte 0x2C do refuse
        blanks
        if (← get).head? == some 0x5D then refuse
      let l ← readObject levelMembers (olds.getD i {})
      items fuel (i + 1) false (l :: acc)
  let ls ← items ((← get).length + 1) 0 true []
  pure (some ls)

/-- The members of a pair. -/
def pairMembers : List (Member Pair) :=
  [("base", fun p => do pure { p with base := ← readText p.base }),
   ("quote", fun p => do pure { p with quote := ← readText p.quote })]

/-- The members of a depth reading. -/
def depthMembers : List (Member DepthLevel) :=
  [("percentage", fun d => do pure { d with percentage := ← readFloat d.percentage }),
   ("bid", fun d => do pure { d with bid := ← readFloat d.bid }),
   ("ask", fun d => do pure { d with ask := ← readFloat d.ask })]

/-- The members of a book. -/
def bookMembers : List (Member Orderbook) :=
  [("update_id", fun b => do pure { b with updateId := ← readWord b.updateId }),
   ("bids", fun b => do pure { b with bids := ← readLevels b.bids }),
   ("asks", fun b => do pure { b with asks := ← readLevels b.asks })]

/-- The members of a header. -/
def headerMembers : List (Member Header) :=
  [("timestamp", fun h => do pure { h with timestamp := ← readInt h.timestamp }),
   ("source", fun h => do pure { h with source := ← readText h.source }),
   ("publisher", fun h => do pure { h with publisher := ← readText h.publisher })]

/-- Reads a value of a shape over its old value. -/
def readValue : (s : Shape) → s.Value → Reader s.Value
  | .text, old => readText old
  | .int, old => readInt old
  | .word, old => readWord old
  | .float, old => readFloat old
  | .amount, old => readRaw (UInt128.readJson old)
  | .ordinal e, _ => readRaw e.readJson
  | .pair, old => readObject pairMembers old
  | .depth, old => readObject depthMembers old
  | .book, old => readObject bookMembers old
  | .header, old => readObject headerMembers old
  | .levels, old => readLevels old
  | .optional s, _ => do
    let raw ← expect valueToken?
    if raw == Bytes.ofString "null" then return none
    -- the value is read from its own text, from the zero value, with nothing after it
    match (readValue s s.zero).run (skipSpace raw) with
    | .ok (v, rest) => if (skipSpace rest).isEmpty then pure (some v) else refuse
    | .error e => throw e

/-- Empty sides read back as not supplied. -/
def normalize : (s : Shape) → s.Value → s.Value
  | .levels, v => Levels.ofList (Levels.toList v)
  | .book, v => { v with bids := Levels.ofList v.bids.toList, asks := Levels.ofList v.asks.toList }
  | _, v => v

/-- The members of an entity under its layout. -/
def slotMembers {α : Type} (layout : List (Slot α)) : List (Member α) :=
  layout.map fun slot => (slot.key, fun a => do pure (slot.set (← readValue slot.shape (slot.get a)) a))

/-- The generic failure of text that is no JSON of the expected form. -/
def unreadable : Failure := .coded .malformedPayload "json"

/-- Reads an entity of a kind from JSON text. -/
def decode (k : EntityKind) (text : Bytes) : Except Failure k.Carrier :=
  match (readObject (slotMembers k.layout) k.empty).run (skipSpace text) with
  | .ok (e, rest) =>
    if (skipSpace rest).isEmpty then
      .ok (k.layout.foldl (fun e slot => slot.set (normalize slot.shape (slot.get e)) e) e)
    else .error unreadable
  | .error .malformed => .error unreadable
  | .error (.field f) => .error f

end MarketData.Json
