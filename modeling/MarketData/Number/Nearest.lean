import MarketData.Number.Float

/-!
The binary64 value nearest to a decimal.

A decimal `c · 10^k` is read as the binary64 value nearest to it, a tie going to the even
significand, with gradual underflow below the least normal value. A decimal at or beyond the
point halfway between the greatest finite value and the next power of two has no finite
neighbour: reading it fails.

The value is placed exactly: as a ratio of natural numbers it is scaled by a power of two into
`[2^52, 2^53)` (or held at the least exponent), and the significand is the quotient rounded half
to even.
-/

namespace MarketData.Nearest

/-- The quotient `num / den` rounded to the nearest natural number, a tie to the even one. -/
def roundHalfEven (num den : Nat) : Nat :=
  let q := num / den
  let r := num % den
  if 2 * r < den then q
  else if 2 * r > den then q + 1
  else if q % 2 == 0 then q else q + 1

/-- `num / (den · 2^q)` as a pair of natural numbers. -/
def scaleDown (num den : Nat) (q : Int) : Nat × Nat :=
  if 0 ≤ q then (num, den * Nat.pow 2 q.toNat) else (num * Nat.pow 2 (-q).toNat, den)

/-- The binary exponent that brings the positive ratio `num / den` into `[2^52, 2^53)`. -/
def exponentFor (num den : Nat) : Int :=
  let q0 : Int := (Nat.log2 num : Int) - (Nat.log2 den : Int) - 52
  let (n, d) := scaleDown num den q0
  if n < Nat.pow 2 52 * d then q0 - 1 else q0

/-- The nearest binary64 value to the positive ratio `num / den`, or `none` past the greatest
finite value. -/
def ofRatio (num den : Nat) : Option F64 :=
  let q := max (exponentFor num den) (-1074)
  let (n, d) := scaleDown num den q
  let m := roundHalfEven n d
  let (m, q) := if m = Nat.pow 2 53 then (Nat.pow 2 52, q + 1) else (m, q)
  if q > 971 then none
  else if m < Nat.pow 2 52 then some ⟨m.toUInt64⟩
  else some (F64.ofFields false (q + 1075).toNat (m - Nat.pow 2 52))

/-- The number of decimal digits of a positive natural number. -/
def digitCount (c : Nat) : Nat := (Nat.toDigits 10 c).length

/-- The nearest binary64 value to `±c · 10^k`, or `none` when its magnitude is too large for a
finite value. Decimals far outside the range are settled by their digit count, before any
power of ten is formed. -/
def ofDecimal (negative : Bool) (c : Nat) (k : Int) : Option F64 :=
  let sign := fun (x : F64) => if negative then x.neg else x
  if c = 0 then some (sign F64.zero)
  else
    let magnitude : Int := (digitCount c : Int) + k
    -- below 10^-325 everything rounds to zero; from 10^309 on nothing is finite
    if magnitude < -324 then some (sign F64.zero)
    else if magnitude > 310 then none
    else
      let r := if 0 ≤ k then ofRatio (c * Nat.pow 10 k.toNat) 1 else ofRatio c (Nat.pow 10 (-k).toNat)
      r.map sign

end MarketData.Nearest
