/-!
Binary64 floating-point values by their bits.

Prices, quantities and rates are IEEE 754 binary64 values. The library never does arithmetic on
them; it stores, compares and writes them. So a value is kept as its 64 bits, which makes
equality the equality of bit patterns (a NaN payload and the sign of zero are kept), and every
question about a value is a question about its bits: the sign bit, the 11-bit exponent field
and the 52-bit fraction field.

A finite value is `(-1)^sign · m · 2^q`, with `m` the fraction plus the hidden bit for normal
values, and `q` the exponent field less 1075 (at least -1074).
-/

namespace MarketData

/-- A binary64 value, as its bits. -/
structure F64 where
  /-- The IEEE 754 bit pattern. -/
  bits : UInt64
  deriving DecidableEq, Repr, Inhabited

namespace F64

/-- Positive zero. -/
def zero : F64 := ⟨0⟩

/-- The sign bit. -/
def negative (x : F64) : Bool := x.bits >>> 63 == 1

/-- The 11-bit exponent field. -/
def exponentField (x : F64) : Nat := ((x.bits >>> 52) &&& 0x7FF).toNat

/-- The 52-bit fraction field. -/
def fractionField (x : F64) : Nat := (x.bits &&& 0xFFFFFFFFFFFFF).toNat

/-- Whether the value is a NaN, with any payload. -/
def isNaN (x : F64) : Bool := x.exponentField == 0x7FF && x.fractionField != 0

/-- Whether the value is an infinity. -/
def isInf (x : F64) : Bool := x.exponentField == 0x7FF && x.fractionField == 0

/-- Whether the value is finite. -/
def isFinite (x : F64) : Bool := x.exponentField != 0x7FF

/-- Whether the value is zero, of either sign. -/
def isZero (x : F64) : Bool := x.exponentField == 0 && x.fractionField == 0

/-- The integer significand `m` of a finite value. -/
def significand (x : F64) : Nat :=
  if x.exponentField == 0 then x.fractionField else x.fractionField + Nat.pow 2 52

/-- The binary exponent `q` of a finite value. -/
def binaryExponent (x : F64) : Int :=
  if x.exponentField == 0 then -1074 else (x.exponentField : Int) - 1075

/-- The value with the sign bit cleared. -/
def abs (x : F64) : F64 := ⟨x.bits &&& 0x7FFFFFFFFFFFFFFF⟩

/-- The value with the sign bit flipped. -/
def neg (x : F64) : F64 := ⟨x.bits ^^^ 0x8000000000000000⟩

/-- The value of given sign, exponent field and fraction field. -/
def ofFields (negative : Bool) (exponent fraction : Nat) : F64 :=
  ⟨((if negative then 1 else 0) * Nat.pow 2 63 + exponent * Nat.pow 2 52 + fraction).toUInt64⟩

/-- Positive infinity. -/
def inf : F64 := ofFields false 0x7FF 0

/-- The value of an integer in a float's range that needs no rounding (below 2^53). -/
def ofSmallNat (n : Nat) : F64 :=
  if n = 0 then zero
  else
    let len := Nat.log2 n + 1
    if len ≤ 53 then ofFields false (len - 1 + 1023) ((n * Nat.pow 2 (53 - len)) % Nat.pow 2 52)
    else zero

/-- The integer part of a finite value, rounded toward zero. -/
def truncate (x : F64) : Int :=
  let q := x.binaryExponent
  let n : Nat := if 0 ≤ q then x.significand * Nat.pow 2 q.toNat else x.significand / Nat.pow 2 (-q).toNat
  if x.negative then -(n : Int) else n

/-- Whether one value is below another, neither of them NaN: by sign, then by magnitude, which
for values of one sign follows their bits; the two zeros are equal. -/
def lt (x y : F64) : Bool :=
  if x.isZero && y.isZero then false
  else if x.negative != y.negative then x.negative
  else if x.negative then y.bits < x.bits
  else x.bits < y.bits

theorem isNaN_eq (x : F64) : x.isNaN = (x.exponentField == 0x7FF && x.fractionField != 0) :=
  rfl

end F64

end MarketData
