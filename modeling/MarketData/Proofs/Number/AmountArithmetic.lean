import MarketData.Proofs.Number.AmountText

/-!
# Arithmetic on amounts

Every operation on the two words of an amount is exact on its value `high · 2^64 + low`
(`UInt128.toNat`). Comparing looks at the high words and, when they agree, at the low words,
which orders amounts by value. Adding a word carries out of the low word into the high one, and
the carry out of the high word is the overflow: the sum is kept exactly when it is below 2^128,
and fails with `rangeExceeded` otherwise. An integer is split into words by its quotient and
remainder by 2^64 when it has at most 128 binary digits and is not negative, which is to say
when it lies in `[0, 2^128)`; the arbitrary-precision value of the words, the high word
shifted above the low one, is the amount's value.

A decimal `coeff · 10^exp` denotes a rational number (`Scaled.value`). Scaling it by `10^k`
moves its exponent, and the result is kept as an amount when it is an integer in
`[0, 2^128)`; an amount written with `k` decimals denotes its value times `10^-k` and scales
back to itself.

The main statements are `amount_arithmetic_exact` and `decimal_scaling_exact`.
-/

namespace MarketData

namespace UInt128

theorem toNat_eq (u : UInt128) : u.toNat = u.high.toNat * 2 ^ 64 + u.low.toNat := rfl

/-! ## Comparing -/

/-- Amounts are ordered by their high words, and by their low words when the high words
agree. -/
theorem toNat_lt_toNat_iff {u o : UInt128} :
    u.toNat < o.toNat ↔ u.high < o.high ∨ (u.high = o.high ∧ u.low < o.low) := by
  have := u.low.toNat_lt
  have := o.low.toNat_lt
  rw [toNat_eq, toNat_eq, UInt64.lt_iff_toNat_lt, UInt64.lt_iff_toNat_lt, ← UInt64.toNat_inj]
  omega

theorem toNat_inj {u o : UInt128} : u.toNat = o.toNat ↔ u = o := by
  have := u.low.toNat_lt
  have := o.low.toNat_lt
  obtain ⟨uLow, uHigh⟩ := u
  obtain ⟨oLow, oHigh⟩ := o
  rw [toNat_eq, toNat_eq, mk.injEq, ← UInt64.toNat_inj, ← UInt64.toNat_inj]
  dsimp only at *
  omega

theorem cmp_eq (u o : UInt128) :
    cmp u o = if u.toNat < o.toNat then -1 else if u.toNat = o.toNat then 0 else 1 := by
  have below := toNat_lt_toNat_iff (u := u) (o := o)
  have above := toNat_lt_toNat_iff (u := o) (o := u)
  have same := toNat_inj (u := u) (o := o)
  obtain ⟨uLow, uHigh⟩ := u
  obtain ⟨oLow, oHigh⟩ := o
  simp only [mk.injEq, UInt64.lt_iff_toNat_lt, ← UInt64.toNat_inj] at below above same
  unfold cmp
  simp only [gt_iff_lt, UInt64.lt_iff_toNat_lt]
  split_ifs <;> omega

/-! ## Adding a word -/

/-- 64-bit addition with an incoming carry of 0 or 1 loses nothing: the sum and `2^64` times
the carry out make the true sum. -/
theorem addWithCarry_sum {x y c : UInt64} (bit : c.toNat ≤ 1) :
    (addWithCarry x y c).1.toNat + 2 ^ 64 * (addWithCarry x y c).2.toNat = x.toNat + y.toNat + c.toNat := by
  have := x.toNat_lt
  have := y.toNat_lt
  unfold addWithCarry
  simp only [UInt64.toNat_add, Nat.pow_eq, Nat.reducePow]
  split
  · rw [UInt64.toNat_zero]
    omega
  · rw [UInt64.toNat_one]
    omega

theorem addWithCarry_carry_le (x y c : UInt64) : (addWithCarry x y c).2.toNat ≤ 1 := by
  unfold addWithCarry
  split <;> simp

/-- The words after adding `v`, and `2^128` times the carry out of the high word, make
`u + v`. -/
theorem addWord_carries (u : UInt128) (v : UInt64) :
    (mk (addWithCarry u.low v 0).1 (addWithCarry u.high 0 (addWithCarry u.low v 0).2).1).toNat +
      2 ^ 128 * (addWithCarry u.high 0 (addWithCarry u.low v 0).2).2.toNat = u.toNat + v.toNat := by
  -- the carry out of the low word is the carry into the high word
  have lowSum := addWithCarry_sum (x := u.low) (y := v) (c := 0) (by simp)
  have highSum := addWithCarry_sum (x := u.high) (y := 0) (addWithCarry_carry_le u.low v 0)
  rw [toNat_eq, toNat_eq]
  simp only [UInt64.toNat_zero] at lowSum highSum ⊢
  omega

/-- Adding a word is exact below 2^128, and fails with `rangeExceeded`, never wrapping, from
2^128 on. -/
theorem addWord_exact (u : UInt128) (v : UInt64) :
    (u.toNat + v.toNat < 2 ^ 128 → ∃ w, addWord u v = .ok w ∧ w.toNat = u.toNat + v.toNat) ∧
    (2 ^ 128 ≤ u.toNat + v.toNat → FailsWith (addWord u v) .rangeExceeded) := by
  have sum := addWord_carries u v
  have carryBit := addWithCarry_carry_le u.high 0 (addWithCarry u.low v 0).2
  have bound := (mk (addWithCarry u.low v 0).1 (addWithCarry u.high 0 (addWithCarry u.low v 0).2).1).toNat_lt
  simp only [Nat.pow_eq, Nat.reducePow] at bound sum
  unfold addWord
  dsimp only
  -- the carry out of the high word is the overflow
  split
  · rename_i overflow
    have : (addWithCarry u.high 0 (addWithCarry u.low v 0).2).2.toNat = 1 := by
      rw [Ne, ← UInt64.toNat_inj, UInt64.toNat_zero] at overflow
      omega
    exact ⟨fun small => by omega, fun _ => failsWith_coded _ _⟩
  · rename_i kept
    rw [Decidable.not_not] at kept
    rw [kept, UInt64.toNat_zero] at sum
    exact ⟨fun _ => ⟨_, rfl, by omega⟩, fun large => by omega⟩

/-! ## Integers and their words -/

/-- An integer gives an amount exactly when it lies in `[0, 2^128)`, and that amount has the
integer's value. -/
theorem ofInt_eq_ok_iff {n : Int} {u : UInt128} :
    ofInt n = .ok u ↔ 0 ≤ n ∧ n < 2 ^ 128 ∧ (u.toNat : Int) = n := by
  constructor
  · intro read
    by_cases inside : 0 ≤ n ∧ n < 2 ^ 128
    · obtain ⟨w, readW, value⟩ := ofInt_of_range inside.1 inside.2
      rw [readW, Except.ok.injEq] at read
      exact ⟨inside.1, inside.2, read ▸ value⟩
    · obtain ⟨f, failed, -⟩ := ofInt_of_out_of_range (n := n) (by omega)
      rw [read] at failed
      cases failed
  · rintro ⟨nonneg, small, value⟩
    obtain ⟨w, readW, valueW⟩ := ofInt_of_range nonneg small
    rw [readW, toNat_inj.1 (by omega : w.toNat = u.toNat)]

theorem toBig_mk (l h : UInt64) : (mk l h).toBig = h.toNat * 2 ^ 64 + l.toNat := by
  rw [toBig_eq_toNat, toNat_eq]

theorem ofBig_toBig (u : UInt128) : ofBig (some u.toBig) = .ok u := by
  have := u.toNat_lt
  simp only [Nat.pow_eq, Nat.reducePow] at this
  rw [ofBig, ofInt_eq_ok_iff, toBig_eq_toNat]
  exact ⟨by omega, by omega, rfl⟩

theorem fitsWord_iff (u : UInt128) : u.fitsWord = true ↔ u.toNat < 2 ^ 64 := by
  have := u.low.toNat_lt
  rw [fitsWord, beq_iff_eq, ← UInt64.toNat_inj, UInt64.toNat_zero, toNat_eq]
  constructor
  · intro zero
    rw [zero]
    omega
  · intro small
    by_contra nonzero
    have : 2 ^ 64 ≤ u.high.toNat * 2 ^ 64 := Nat.le_mul_of_pos_left _ (Nat.pos_of_ne_zero nonzero)
    omega

/-- The operations on the words of an amount are exact on its value `high · 2^64 + low`:
comparing gives -1, 0 or 1 as the values compare; adding a word gives the sum below 2^128 and
fails with `rangeExceeded` from 2^128 on; an absent integer gives zero and an integer gives an
amount exactly in `[0, 2^128)`, of its value, failing with `rangeExceeded` outside; the
arbitrary-precision value of the words is `high · 2^64 + low` and gives the amount back; and an
amount fits its low word exactly below 2^64. -/
theorem amount_arithmetic_exact :
    (∀ u o : UInt128, cmp u o = if u.toNat < o.toNat then -1 else if u.toNat = o.toNat then 0 else 1) ∧
    (∀ (u : UInt128) (v : UInt64), u.toNat + v.toNat < 2 ^ 128 →
      ∃ w, addWord u v = .ok w ∧ w.toNat = u.toNat + v.toNat) ∧
    (∀ (u : UInt128) (v : UInt64), 2 ^ 128 ≤ u.toNat + v.toNat → FailsWith (addWord u v) .rangeExceeded) ∧
    ofBig none = .ok zero ∧
    (∀ n : Int, (∃ u, ofBig (some n) = .ok u) ↔ 0 ≤ n ∧ n < 2 ^ 128) ∧
    (∀ (n : Int) (u : UInt128), ofBig (some n) = .ok u → (u.toNat : Int) = n) ∧
    (∀ n : Int, n < 0 ∨ 2 ^ 128 ≤ n → FailsWith (ofBig (some n)) .rangeExceeded) ∧
    (∀ u : UInt128, ofBig (some u.toBig) = .ok u) ∧
    (∀ l h : UInt64, (mk l h).toBig = h.toNat * 2 ^ 64 + l.toNat) ∧
    (∀ u : UInt128, u.fitsWord = true ↔ u.toNat < 2 ^ 64) := by
  refine ⟨cmp_eq, fun u v => (addWord_exact u v).1, fun u v => (addWord_exact u v).2, rfl,
    fun n => ?_, fun n u read => (ofInt_eq_ok_iff.1 read).2.2, fun n outside => ofInt_of_out_of_range outside,
    ofBig_toBig, toBig_mk, fitsWord_iff⟩
  constructor
  · rintro ⟨u, read⟩
    exact ⟨(ofInt_eq_ok_iff.1 read).1, (ofInt_eq_ok_iff.1 read).2.1⟩
  · rintro ⟨nonneg, small⟩
    obtain ⟨u, read, -⟩ := ofInt_of_range nonneg small
    exact ⟨u, read⟩

/-- One more than the largest amount overflows. -/
theorem largest_plus_one_overflows :
    2 ^ 128 ≤ (mk 0xFFFFFFFFFFFFFFFF 0xFFFFFFFFFFFFFFFF).toNat + (1 : UInt64).toNat ∧
      FailsWith (addWord (mk 0xFFFFFFFFFFFFFFFF 0xFFFFFFFFFFFFFFFF) 1) .rangeExceeded := by
  have large : 2 ^ 128 ≤ (mk 0xFFFFFFFFFFFFFFFF 0xFFFFFFFFFFFFFFFF).toNat + (1 : UInt64).toNat := by
    rw [toNat_eq]
    decide
  exact ⟨large, amount_arithmetic_exact.2.2.1 _ _ large⟩

end UInt128

/-! ## Decimal scaling -/

namespace Scaled

/-- The rational number a decimal denotes. -/
def value (d : Scaled) : ℚ := d.coeff * 10 ^ d.exp

theorem value_shift (d : Scaled) (k : Int) : (d.shift k).value = d.value * 10 ^ k := by
  rw [value, value, shift, zpow_add₀ (by norm_num), mul_assoc]

theorem value_of_nonneg {d : Scaled} (nonneg : 0 ≤ d.exp) :
    d.value = ((d.coeff * (Nat.pow 10 d.exp.toNat : Nat) : Int) : ℚ) := by
  have power : (10 : ℚ) ^ d.exp = ((Nat.pow 10 d.exp.toNat : Nat) : ℚ) := by
    rw [← Int.toNat_of_nonneg nonneg, zpow_natCast, Nat.pow_eq, Nat.cast_pow, Int.toNat_natCast]
    norm_num
  rw [value, power]
  push_cast
  rfl

theorem value_of_neg {d : Scaled} (negative : d.exp < 0) :
    d.value = d.coeff / ((Nat.pow 10 (-d.exp).toNat : Nat) : ℚ) := by
  obtain ⟨m, places⟩ : ∃ m : Nat, (-d.exp).toNat = m := ⟨_, rfl⟩
  have exponent : d.exp = -(m : Int) := by omega
  rw [value, places, exponent, zpow_neg, zpow_natCast, div_eq_mul_inv, Nat.pow_eq]
  push_cast
  rfl

/-- The integrality test of a decimal tells whether its value is an integer, and then the
integer part is that integer. -/
theorem isWhole_iff (d : Scaled) :
    d.isWhole = true ↔ ∃ n : ℤ, d.value = n := by
  unfold isWhole
  by_cases nonneg : 0 ≤ d.exp
  · simp only [nonneg, decide_true, Bool.true_or, true_iff]
    exact ⟨_, value_of_nonneg nonneg⟩
  · have power : (0 : ℚ) < ((Nat.pow 10 (-d.exp).toNat : Nat) : ℚ) := by
      exact_mod_cast Nat.pow_pos (by norm_num)
    simp only [nonneg, decide_false, Bool.false_or, beq_iff_eq, value_of_neg (by omega : d.exp < 0)]
    constructor
    · intro divides
      exact ⟨d.coeff / (Nat.pow 10 (-d.exp).toNat : Nat), by
        rw [Int.cast_div (Int.dvd_of_emod_eq_zero divides) (by exact_mod_cast power.ne')]
        push_cast
        rfl⟩
    · rintro ⟨n, quotient⟩
      rw [div_eq_iff power.ne'] at quotient
      have : d.coeff = n * (Nat.pow 10 (-d.exp).toNat : Nat) := by exact_mod_cast quotient
      rw [this]
      exact Int.mul_emod_left _ _

theorem value_of_isWhole {d : Scaled} (whole : d.isWhole = true) : d.value = d.wholePart := by
  unfold wholePart
  split
  · rename_i nonneg
    exact value_of_nonneg nonneg
  · rename_i negative
    have divides : ((Nat.pow 10 (-d.exp).toNat : Nat) : Int) ∣ d.coeff := by
      unfold isWhole at whole
      simp only [negative, decide_false, Bool.false_or, beq_iff_eq] at whole
      exact Int.dvd_of_emod_eq_zero whole
    have power : ((Nat.pow 10 (-d.exp).toNat : Nat) : ℚ) ≠ 0 := by
      exact_mod_cast (Nat.pow_pos (by norm_num)).ne'
    rw [value_of_neg (by omega : d.exp < 0), Int.tdiv_eq_ediv_of_dvd divides,
      Int.cast_div divides (by exact_mod_cast power)]
    push_cast
    rfl

end Scaled

namespace UInt128

/-- Scaling a decimal by `10^k` succeeds exactly for a natural `k` and a scaled value that is an
integer in `[0, 2^128)`, and then gives the amount of that value. -/
theorem ofScaled_eq_ok_iff {d : Scaled} {k : Int} {u : UInt128} :
    ofScaled d k = .ok u ↔ 0 ≤ k ∧ (u.toNat : ℚ) = d.value * 10 ^ k := by
  unfold ofScaled
  by_cases negative : k < 0
  · rw [if_pos negative]
    constructor
    · intro failed
      cases failed
    · rintro ⟨nonneg, -⟩
      omega
  rw [if_neg negative, ← Scaled.value_shift]
  dsimp only
  split
  · rename_i whole
    rw [ofInt_eq_ok_iff, Scaled.value_of_isWhole whole]
    constructor
    · rintro ⟨-, -, value⟩
      exact ⟨by omega, by exact_mod_cast value⟩
    · rintro ⟨-, value⟩
      have value : (u.toNat : Int) = (d.shift k).wholePart := by exact_mod_cast value
      have := u.toNat_lt
      simp only [Nat.pow_eq, Nat.reducePow] at this
      exact ⟨by omega, by omega, value⟩
  · rename_i fraction
    constructor
    · intro failed
      cases failed
    · rintro ⟨-, value⟩
      exact absurd ((Scaled.isWhole_iff _).2 ⟨u.toNat, by rw [← value]; rfl⟩) fraction

theorem ofScaled_fails {d : Scaled} {k : Int} (refused : ∀ u, ofScaled d k ≠ .ok u) :
    FailsWith (ofScaled d k) .rangeExceeded := by
  unfold ofScaled
  split
  · exact failsWith_coded _ _
  · dsimp only
    split
    · cases read : ofInt (d.shift k).wholePart with
      | error f =>
        -- an integer that is no amount lies outside `[0, 2^128)`
        have outside : (d.shift k).wholePart < 0 ∨ 2 ^ 128 ≤ (d.shift k).wholePart := by
          by_contra inside
          obtain ⟨w, readW, -⟩ := ofInt_of_range (n := (d.shift k).wholePart) (by omega) (by omega)
          rw [read] at readW
          cases readW
        exact read ▸ ofInt_of_out_of_range outside
      | ok w =>
        unfold ofScaled at refused
        simp only [*, if_false] at refused
        exact absurd rfl (refused w)
    · exact failsWith_coded _ _

theorem toScaled_value (u : UInt128) (k : Int) : (u.toScaled k).value = u.toNat * 10 ^ (-k) := by
  rw [Scaled.value, toScaled, toBig_eq_toNat]
  rfl

/-- Decimal scaling is exact: it succeeds exactly for a natural `k` and a decimal whose value
times `10^k` is an integer in `[0, 2^128)`, gives the amount of that value, and otherwise fails
with `rangeExceeded`; an amount written with a natural number `k` of decimals denotes its value
times `10^-k` and scales back to itself. -/
theorem decimal_scaling_exact :
    (∀ (d : Scaled) (k : Int),
      (∃ u, ofScaled d k = .ok u) ↔ 0 ≤ k ∧ ∃ n : ℤ, d.value * 10 ^ k = n ∧ 0 ≤ n ∧ n < 2 ^ 128) ∧
    (∀ (d : Scaled) (k : Int) (u : UInt128), ofScaled d k = .ok u → (u.toNat : ℚ) = d.value * 10 ^ k) ∧
    (∀ (d : Scaled) (k : Int), (∀ u, ofScaled d k ≠ .ok u) → FailsWith (ofScaled d k) .rangeExceeded) ∧
    (∀ (u : UInt128) (k : Int), 0 ≤ k →
      (u.toScaled k).value = u.toNat * 10 ^ (-k) ∧ ofScaled (u.toScaled k) k = .ok u) := by
  refine ⟨fun d k => ?_, fun d k u read => (ofScaled_eq_ok_iff.1 read).2, fun d k refused => ofScaled_fails refused,
    fun u k nonneg => ⟨toScaled_value u k, ?_⟩⟩
  · constructor
    · rintro ⟨u, read⟩
      obtain ⟨nonneg, value⟩ := ofScaled_eq_ok_iff.1 read
      have := u.toNat_lt
      simp only [Nat.pow_eq, Nat.reducePow] at this
      exact ⟨nonneg, u.toNat, by rw [← value]; rfl, by omega, by omega⟩
    · rintro ⟨nonneg, n, value, low, high⟩
      obtain ⟨u, -, valueU⟩ := ofInt_of_range low high
      refine ⟨u, ofScaled_eq_ok_iff.2 ⟨nonneg, ?_⟩⟩
      rw [value, ← valueU]
      rfl
  · rw [ofScaled_eq_ok_iff, toScaled_value, mul_assoc, ← zpow_add₀ (by norm_num), neg_add_cancel, zpow_zero,
      mul_one]
    exact ⟨nonneg, rfl⟩

end UInt128

end MarketData
