import MarketData.Failure
import MarketData.Number.Scaled
import MarketData.Text.Blank
import MarketData.Text.Quoted

/-!
128-bit unsigned amounts.

Prices and volumes are unsigned integers below 2^128 that travel as a pair of 64-bit words,
`high · 2^64 + low`. Every pair of words is an amount, and every amount has exactly one pair.

Conversions from wider numbers fail with `rangeExceeded` below zero and from 2^128 on; the text
form is the decimal numeral, and text is read in base 10, or in base 16 after a `0x` prefix,
with an optional sign.
-/

namespace MarketData

/-- An unsigned integer below 2^128, as its two 64-bit words. -/
structure UInt128 where
  /-- The low 64 bits. -/
  low : UInt64
  /-- The high 64 bits. -/
  high : UInt64
  deriving DecidableEq, Repr, Inhabited

namespace UInt128

/-- Zero. -/
def zero : UInt128 := ⟨0, 0⟩

/-- The value the words denote. -/
def toNat (u : UInt128) : Nat := u.high.toNat * Nat.pow 2 64 + u.low.toNat

/-- The amount with a value below 2^128. -/
def ofNatBelow (n : Nat) : UInt128 := ⟨(n % Nat.pow 2 64).toUInt64, (n / Nat.pow 2 64).toUInt64⟩

/-- The number of binary digits of a natural number. -/
def bitLength (n : Nat) : Nat := if n = 0 then 0 else Nat.log2 n + 1

/-- The amount with an integer's value: the quotient and remainder by 2^64 become the words.
Negative integers and those of more than 128 binary digits fail. -/
def ofInt (n : Int) : Except Failure UInt128 :=
  if n < 0 then .error (.coded .rangeExceeded s!"uint128: negative value {n}")
  else if bitLength n.toNat > 128 then
    .error (.coded .rangeExceeded s!"uint128: {n} needs {bitLength n.toNat} bits")
  else .ok (ofNatBelow n.toNat)

/-- The amount of an arbitrary-precision integer that may be absent; no integer gives zero. -/
def ofBig : Option Int → Except Failure UInt128
  | none => .ok zero
  | some n => ofInt n

/-- The value as one arbitrary-precision integer: the high word shifted above the low one, the
two joined bitwise. -/
def toBig (u : UInt128) : Nat := u.high.toNat <<< 64 ||| u.low.toNat

/-- The decimal numeral of the amount: that of the low word when the high word is zero, that of
the whole value otherwise. -/
def render (u : UInt128) : String := if u.high = 0 then toString u.low else toString u.toBig

/-- Whether both words are zero. -/
def isZero (u : UInt128) : Bool := u.low == 0 && u.high == 0

/-- Whether the amount fits in its low word. -/
def fitsWord (u : UInt128) : Bool := u.high == 0

/-- The three-way comparison of two amounts: -1, 0 or 1. -/
def cmp (u v : UInt128) : Int :=
  if u.high < v.high then -1
  else if u.high > v.high then 1
  else if u.low < v.low then -1
  else if u.low > v.low then 1
  else 0

/-- The sum of two words and an incoming carry of 0 or 1, as 64-bit addition with carry gives
it: the sum modulo 2^64, and a carry out of 1 when the sum reaches 2^64 and of 0 otherwise. -/
def addWithCarry (x y carry : UInt64) : UInt64 × UInt64 :=
  (x + y + carry, if x.toNat + y.toNat + carry.toNat < Nat.pow 2 64 then 0 else 1)

/-- Adds a 64-bit word to the low word and the carry to the high word; a carry out of the high
word fails instead of wrapping. -/
def addWord (u : UInt128) (v : UInt64) : Except Failure UInt128 :=
  let low := addWithCarry u.low v 0
  let high := addWithCarry u.high 0 low.2
  if high.2 ≠ 0 then .error (.coded .rangeExceeded s!"uint128: {u.render} + {v.toNat} overflows")
  else .ok ⟨low.1, high.1⟩

/-- Reads an amount: blanks around it are ignored, a `0x` or `0X` prefix selects base 16, and
the numeral may carry a sign. -/
def parse (text : Bytes) : Except Failure UInt128 :=
  let trimmed := text.trimBlank
  let (base, digits) :=
    match trimmed with
    | 0x30 :: 0x78 :: rest => (16, rest)
    | 0x30 :: 0x58 :: rest => (16, rest)
    | _ => (10, trimmed)
  match Numeral.readSigned? base digits with
  | some n => ofInt n
  | none => .error (.coded .malformedPayload s!"uint128: cannot parse {Bytes.quoted digits}")

/-- Reads the JSON form of an amount over a prior value: `null` keeps the prior value, and
otherwise the quotes around the text are dropped and the rest is parsed. -/
def readJson (prior : UInt128) (text : Bytes) : Except Failure UInt128 :=
  let trimmed := text.trimBlank
  if trimmed == Bytes.ofString "null" then .ok prior
  else
    let unquoted := ((trimmed.dropWhile (· == 0x22)).reverse.dropWhile (· == 0x22)).reverse
    parse unquoted

/-- The JSON form of an amount: its decimal numeral in quotes. -/
def jsonText (u : UInt128) : String := "\"" ++ u.render ++ "\""

/-- The amount `d · 10^decimals`; fails with `rangeExceeded` for negative `decimals`, when the
scaled value has a fraction, and when it is out of range. -/
def ofScaled (d : Scaled) (decimals : Int) : Except Failure UInt128 :=
  if decimals < 0 then .error (.coded .rangeExceeded s!"uint128: negative decimals {decimals}")
  else
    let scaled := d.shift decimals
    if scaled.isWhole then ofInt scaled.wholePart
    else .error (.coded .rangeExceeded
      s!"uint128: {d.render} has more than {decimals} decimals")

/-- The amount as a decimal with `decimals` digits after the point. -/
def toScaled (u : UInt128) (decimals : Int) : Scaled := ⟨u.toBig, -decimals⟩

/-- Shifting the high word and joining the low one bitwise adds them: the low word has no bit
at or above 64. -/
theorem toBig_eq_toNat (u : UInt128) : u.toBig = u.toNat := by
  unfold toBig toNat
  rw [Nat.shiftLeft_eq, Nat.mul_comm, ← Nat.two_pow_add_eq_or_of_lt u.low.toNat_lt, Nat.mul_comm]

theorem render_eq (u : UInt128) : u.render = toString u.toNat := by
  unfold render
  split
  · rename_i zero
    show toString u.low.toNat = toString (u.high.toNat * Nat.pow 2 64 + u.low.toNat)
    rw [zero]
    simp
  · rw [toBig_eq_toNat]

/-- A number has at most `k` binary digits exactly when it is below `2^k`. -/
theorem bitLength_le_iff {n k : Nat} : bitLength n ≤ k ↔ n < Nat.pow 2 k := by
  unfold bitLength
  split
  · rename_i zero
    rw [zero]
    exact ⟨fun _ => Nat.pow_pos (by decide), fun _ => Nat.zero_le k⟩
  · rename_i nonzero
    rw [Nat.add_one_le_iff]
    exact Nat.log2_lt nonzero

theorem toNat_lt (u : UInt128) : u.toNat < Nat.pow 2 128 := by
  have h1 := u.low.toNat_lt
  have h2 := u.high.toNat_lt
  unfold toNat
  simp only [Nat.pow_eq, Nat.reducePow] at h1 h2 ⊢
  omega

theorem toNat_ofNatBelow {n : Nat} (h : n < Nat.pow 2 128) : (ofNatBelow n).toNat = n := by
  unfold ofNatBelow toNat
  simp only [Nat.pow_eq, Nat.reducePow] at h ⊢
  have hd : n / 18446744073709551616 < 18446744073709551616 := by omega
  simp only [Nat.toUInt64_eq, UInt64.toNat_ofNat']
  rw [Nat.mod_eq_of_lt hd, Nat.mod_eq_of_lt (Nat.mod_lt _ (by decide))]
  omega

theorem ofInt_of_lt {n : Int} (nonneg : 0 ≤ n) (small : n.toNat < Nat.pow 2 128) :
    ofInt n = .ok (ofNatBelow n.toNat) := by
  unfold ofInt
  rw [if_neg (Int.not_lt.2 nonneg), if_neg (Nat.not_lt.2 (bitLength_le_iff.2 small))]

end UInt128

end MarketData
