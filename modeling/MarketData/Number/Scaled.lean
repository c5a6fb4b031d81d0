import MarketData.Number.Integer
import MarketData.Text.Utf8

/-!
Scaled decimals.

A scaled decimal is an integer coefficient and a power of ten, `coeff · 10^exp`, so that every
decimal numeral has an exact value. Its text is positional: the coefficient's digits with a
point placed `-exp` digits from the right, zeros at the end of the fraction dropped, and no
point when the fraction is empty.

The numeral it reads is an optional sign, digits with at most one point, and an optional
exponent after `e` or `E`. The exponent, and the exponent of the result, must fit in 32 bits.
-/

namespace MarketData

/-- The decimal `coeff · 10^exp`. -/
structure Scaled where
  /-- The integer the digits spell. -/
  coeff : Int
  /-- The power of ten the digits are scaled by. -/
  exp : Int
  deriving DecidableEq, Repr

namespace Scaled

/-- The smallest exponent of 32 bits. -/
def minExp : Int := -(Int.pow 2 31)

/-- The largest exponent of 32 bits. -/
def maxExp : Int := Int.pow 2 31 - 1

/-- `coeff · 10^shift`: the decimal with its point moved `shift` places right. -/
def shift (d : Scaled) (places : Int) : Scaled := { d with exp := d.exp + places }

/-- Whether the decimal is an integer. -/
def isWhole (d : Scaled) : Bool :=
  decide (0 ≤ d.exp) || d.coeff % (Nat.pow 10 (-d.exp).toNat : Nat) == 0

/-- The integer part, rounded toward zero. -/
def wholePart (d : Scaled) : Int :=
  if 0 ≤ d.exp then d.coeff * (Nat.pow 10 d.exp.toNat : Nat)
  else d.coeff.tdiv (Nat.pow 10 (-d.exp).toNat : Nat)

/-- The positional text of the decimal. -/
def render (d : Scaled) : String :=
  if 0 ≤ d.exp then toString (d.coeff * (Nat.pow 10 d.exp.toNat : Nat))
  else
    let digits := (toString d.coeff.natAbs).toList
    let places := (-d.exp).toNat
    let (whole, fraction) :=
      if digits.length > places then
        (digits.take (digits.length - places), digits.drop (digits.length - places))
      else (['0'], List.replicate (places - digits.length) '0' ++ digits)
    let fraction := (fraction.reverse.dropWhile (· = '0')).reverse
    let body := if fraction.isEmpty then whole else whole ++ '.' :: fraction
    String.ofList (if d.coeff < 0 then '-' :: body else body)

/-- Reads a decimal numeral; the reason is given when the text is no numeral. -/
def read (text : Bytes) : Except String Scaled := do
  let shown := Utf8.toStringLossy
  let (mantissa, exponent) ←
    match text.findIdx? (fun b => b == 0x65 || b == 0x45) with
    | some i =>
      match Numeral.readSigned? 10 (text.drop (i + 1)) with
      | some e =>
        if minExp ≤ e && e ≤ maxExp then pure (text.take i, e)
        else throw s!"can't convert {shown text} to decimal: fractional part too long"
      | none => throw s!"can't convert {shown text} to decimal: exponent is not numeric"
    | none => pure (text, 0)
  let points := mantissa.filter (· == 0x2E)
  if points.length > 1 then throw s!"can't convert {shown mantissa} to decimal: too many .s"
  let (digits, exp) :=
    match mantissa.findIdx? (· == 0x2E) with
    | some p => (mantissa.take p ++ mantissa.drop (p + 1), exponent - ((mantissa.drop (p + 1)).length : Int))
    | none => (mantissa, exponent)
  match Numeral.readSigned? 10 digits with
  | none => throw s!"can't convert {shown mantissa} to decimal"
  | some coeff =>
    if exp < minExp || exp > maxExp then
      throw s!"can't convert {shown text} to decimal: fractional part too long"
    pure ⟨coeff, exp⟩

theorem render_whole (n : Int) : render ⟨n, 0⟩ = toString n := by
  simp [render]

end Scaled

end MarketData
