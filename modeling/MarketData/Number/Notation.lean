import MarketData.Number.Shortest

/-!
Written forms of a binary64 value.

A finite value is written with its shortest digits `d · 10^k` (see `Shortest`). A notation
decides the rest: the decimal exponents written positionally, and for the others the mark and
the least width of the exponent, which may differ above and below zero. A positional form has a
point only when there are digits after it; an exponent form puts the point after the first
digit, also only when more follow.
-/

namespace MarketData

/-- How a finite binary64 value is written, given its shortest digits. -/
structure Notation where
  /-- The least decimal exponent (of the leading digit) written positionally. -/
  positionalFrom : Int
  /-- The greatest decimal exponent written positionally. -/
  positionalTo : Int
  /-- The least number of digits of a non-negative exponent. -/
  widthAbove : Nat
  /-- The least number of digits of a negative exponent. -/
  widthBelow : Nat

namespace Notation

/-- The decimal digits of a natural number. -/
def digitsOf (n : Nat) : List Char := Nat.toDigits 10 n

/-- Pads with leading zeros to a width. -/
def padLeft (width : Nat) (cs : List Char) : List Char :=
  List.replicate (width - cs.length) '0' ++ cs

/-- `ds · 10^k` written out with no exponent. -/
def positional (ds : List Char) (k : Int) : List Char :=
  if 0 ≤ k then ds ++ List.replicate k.toNat '0'
  else
    let shift := (-k).toNat
    if shift < ds.length then
      ds.take (ds.length - shift) ++ '.' :: ds.drop (ds.length - shift)
    else '0' :: '.' :: List.replicate (shift - ds.length) '0' ++ ds

/-- The text of a finite value of magnitude `d · 10^k`, `d` without trailing zeros, unsigned. -/
def renderDigits (n : Notation) (d : Nat) (k : Int) : List Char :=
  let ds := digitsOf d
  let lead : Int := k + ds.length - 1
  if n.positionalFrom ≤ lead && lead ≤ n.positionalTo then positional ds k
  else
    let mantissa := match ds with
      | [] => ['0']
      | [c] => [c]
      | c :: rest => c :: '.' :: rest
    let exponent :=
      if 0 ≤ lead then '+' :: padLeft n.widthAbove (digitsOf lead.toNat)
      else '-' :: padLeft n.widthBelow (digitsOf (-lead).toNat)
    mantissa ++ 'e' :: exponent

/-- The text of a finite value: its sign, then zero or its shortest digits in this notation. -/
def render (n : Notation) (x : F64) : String :=
  let sign := if x.negative then "-" else ""
  if x.isZero then sign ++ "0"
  else
    let (d, k) := Shortest.ofF64 x
    sign ++ String.ofList (n.renderDigits d k)

end Notation

end MarketData
