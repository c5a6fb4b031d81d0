import MarketData.Number.Float

/-!
Shortest decimal digits of a binary64 value.

A finite non-zero value `m · 2^q` is the only binary64 value in its rounding interval: the reals
within half a unit of the last place of it (the ends included exactly when `m` is even; below a
power of two the lower half-unit is half as wide). Its shortest digits are the fewest decimal
digits `d · 10^k` that lie in that interval, and of two such candidates the nearer one.

For each digit count `n` from 1 on, the two candidates are the neighbours of the value on the
grid `10^k` with `k = E - n + 1`, where `10^E ≤ value < 10^(E+1)`; all comparisons are exact in
natural numbers.
-/

namespace MarketData.Shortest

/-- A positive rational `num / den`. -/
structure Ratio where
  /-- The numerator. -/
  num : Nat
  /-- The denominator, positive. -/
  den : Nat

/-- `m · 2^e` as a ratio. -/
def ofBinary (m : Nat) (e : Int) : Ratio :=
  if 0 ≤ e then ⟨m * Nat.pow 2 e.toNat, 1⟩ else ⟨m, Nat.pow 2 (-e).toNat⟩

/-- `c · 10^k` as a ratio. -/
def ofDecimal (c : Nat) (k : Int) : Ratio :=
  if 0 ≤ k then ⟨c * Nat.pow 10 k.toNat, 1⟩ else ⟨c, Nat.pow 10 (-k).toNat⟩

/-- `v / 10^k`: the ratio counted in steps of the grid `10^k`. -/
def Ratio.onGrid (v : Ratio) (k : Int) : Ratio :=
  if 0 ≤ k then ⟨v.num, v.den * Nat.pow 10 k.toNat⟩ else ⟨v.num * Nat.pow 10 (-k).toNat, v.den⟩

/-- Compares two ratios: `lt`, `eq` or `gt`. -/
def Ratio.cmp (a b : Ratio) : Ordering := compare (a.num * b.den) (b.num * a.den)

/-- The decimal exponent `E` with `10^E ≤ v < 10^(E+1)`, from an estimate corrected by exact
comparison. -/
def decimalExponent (v : Ratio) (binaryMagnitude : Int) : Int :=
  let estimate : Int := (binaryMagnitude * 30103).fdiv 100000
  let down := fun (e : Int) =>
    if (ofDecimal 1 e).cmp v == .gt then e - 1 else e
  let up := fun (e : Int) =>
    if (ofDecimal 1 (e + 1)).cmp v != .gt then e + 1 else e
  up (up (down (down estimate)))

/-- The rounding interval of `m · 2^q` in ratios over `2^(q-2)`: its ends, the value itself, and
whether the ends belong to it. -/
structure Interval where
  /-- The lower end. -/
  lo : Ratio
  /-- The value. -/
  value : Ratio
  /-- The upper end. -/
  hi : Ratio
  /-- Whether the ends belong to the interval. -/
  inclusive : Bool

/-- The rounding interval of `m · 2^q`, `m > 0`; `lowerTight` is set when the interval below is
half as wide. The ends belong to it when `m` is even. -/
def interval (m : Nat) (q : Int) (lowerTight : Bool) : Interval where
  lo := ofBinary (if lowerTight then 4 * m - 1 else 4 * m - 2) (q - 2)
  value := ofBinary (4 * m) (q - 2)
  hi := ofBinary (4 * m + 2) (q - 2)
  inclusive := m % 2 == 0

/-- Whether `c · 10^k` lies in the interval. -/
def Interval.contains (i : Interval) (c : Nat) (k : Int) : Bool :=
  let r := ofDecimal c k
  match r.cmp i.lo, r.cmp i.hi with
  | .gt, .lt => true
  | .eq, .lt => i.inclusive
  | .gt, .eq => i.inclusive
  | .eq, .eq => i.inclusive
  | _, _ => false

/-- The neighbours of the value on the grid `10^k` that lie in the interval: the nearer one, an
exact tie going to the even digit. -/
def Interval.candidate (i : Interval) (k : Int) : Option (Nat × Int) :=
  let scaled := i.value.onGrid k
  let below := scaled.num / scaled.den
  let above := if below * scaled.den == scaled.num then below else below + 1
  let okBelow := below ≠ 0 && i.contains below k
  let okAbove := i.contains above k
  if okBelow && okAbove then
    let dBelow := scaled.num - below * scaled.den
    let dAbove := above * scaled.den - scaled.num
    if dBelow < dAbove then some (below, k)
    else if dAbove < dBelow then some (above, k)
    else if below % 2 == 0 then some (below, k) else some (above, k)
  else if okBelow then some (below, k)
  else if okAbove then some (above, k)
  else none

/-- The digits and exponent `(d, k)` of the shortest decimal `d · 10^k` in the rounding interval
of `m · 2^q`, `m > 0`; `lowerTight` is set when the interval below is half as wide. With
`10^E ≤ value < 10^(E+1)`, the candidates of `n` digits lie on the grid `10^(E - n + 1)`. -/
def digits (m : Nat) (q : Int) (lowerTight : Bool) : Nat × Int :=
  let i := interval m q lowerTight
  let e := decimalExponent i.value ((Nat.log2 m : Int) + q)
  ((List.range 17).findSome? fun n => i.candidate (e - ((n + 1 : Nat) : Int) + 1)).getD (m, q)

/-- Drops trailing zero digits into the exponent. -/
def trim (d : Nat) (k : Int) (fuel : Nat) : Nat × Int :=
  match fuel with
  | 0 => (d, k)
  | fuel + 1 => if d ≠ 0 && d % 10 == 0 then trim (d / 10) (k + 1) fuel else (d, k)

/-- The shortest digits of a finite non-zero value, without trailing zeros. -/
def ofF64 (x : F64) : Nat × Int :=
  let m := x.significand
  let q := x.binaryExponent
  let tight := x.fractionField == 0 && x.exponentField > 1
  let (d, k) := digits m q tight
  trim d k 40

end MarketData.Shortest
