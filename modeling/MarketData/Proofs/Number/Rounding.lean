import MarketData.Proofs.Number.Fields
import MarketData.Number.Nearest

/-!
# Reading a decimal as the nearest binary64 value

A finite non-zero value `m · 2^q` of positive sign owns the rationals within half a unit of its
last place: its rounding interval, whose ends belong to it when `m` is even, and whose lower
half is half as wide when `m` is the least significand of a binade above the least normal one
(`F64.RoundsTo`). Reading a decimal places it exactly: `Nearest.ofDecimal` gives back the value
whose rounding interval holds the decimal (`Nearest.ofDecimal_of_roundsTo`).

The proof follows the reader. `exponentFor` finds the binade of the ratio, `scaleDown` divides
by its power of two, `roundHalfEven` rounds the quotient, and the significand and exponent are
packed into bits; each step has its own lemma, and the three ways a value can own its interval
(inside one binade, at the bottom of a binade, below the least normal value) meet in
`ofRatio_of_roundsTo`.
-/

namespace MarketData

namespace F64

/-- The exact value `m · 2^q` of a finite value, without its sign. -/
def magnitude (x : F64) : ℚ := x.significand * 2 ^ x.binaryExponent

/-- Whether the lower half of the rounding interval is half as wide: the significand is the
least of a binade above the least normal one. -/
def tight (x : F64) : Bool := x.fractionField == 0 && x.exponentField > 1

/-- The lower end of the rounding interval. -/
def roundingLow (x : F64) : ℚ :=
  (4 * x.significand - if x.tight then 1 else 2) / 4 * 2 ^ x.binaryExponent

/-- The upper end of the rounding interval. -/
def roundingHigh (x : F64) : ℚ := (4 * x.significand + 2) / 4 * 2 ^ x.binaryExponent

/-- A rational that reads back as `x`: inside the rounding interval of `x`, or at one of its
ends when the significand is even. -/
def RoundsTo (r : ℚ) (x : F64) : Prop :=
  (x.roundingLow < r ∨ x.significand % 2 = 0 ∧ r = x.roundingLow) ∧
    (r < x.roundingHigh ∨ x.significand % 2 = 0 ∧ r = x.roundingHigh)

theorem roundsTo_abs (r : ℚ) (x : F64) : F64.RoundsTo r x.abs ↔ F64.RoundsTo r x := by
  unfold RoundsTo roundingLow roundingHigh tight significand binaryExponent
  rw [exponentField_abs, fractionField_abs]

/-- A ratio in the rounding interval of `x`, scaled by the exponent of `x`, is within a half of
its significand; the lower half is narrower when the interval is tight. -/
theorem RoundsTo.scaled {x : F64} {r : ℚ} (near : F64.RoundsTo r x) :
    ((x.significand : ℚ) - 1 / 2 < r / 2 ^ x.binaryExponent ∨
        x.significand % 2 = 0 ∧ r / 2 ^ x.binaryExponent = x.significand - 1 / 2) ∧
      (r / 2 ^ x.binaryExponent < x.significand + 1 / 2 ∨
        x.significand % 2 = 0 ∧ r / 2 ^ x.binaryExponent = x.significand + 1 / 2) := by
  have pos : (0 : ℚ) < 2 ^ x.binaryExponent := by positivity
  obtain ⟨low, high⟩ := near
  unfold F64.roundingLow at low
  unfold F64.roundingHigh at high
  constructor
  · by_cases tight : x.tight = true
    · simp only [tight, if_true] at low
      left
      rw [lt_div_iff₀ pos]
      rcases low with lt | ⟨_, same⟩
      · linarith
      · rw [same]
        linarith
    · simp only [tight, Bool.false_eq_true, if_false] at low
      rcases low with lt | ⟨even, same⟩
      · left
        rw [lt_div_iff₀ pos]
        linarith
      · right
        refine ⟨even, ?_⟩
        rw [same, div_eq_iff pos.ne']
        ring
  · rcases high with lt | ⟨even, same⟩
    · left
      rw [div_lt_iff₀ pos]
      linarith
    · right
      refine ⟨even, ?_⟩
      rw [same, div_eq_iff pos.ne']
      ring

theorem roundingLow_ge {x : F64} (nonzero : x.isZero = false) :
    (2 : ℚ) ^ (-1075 : ℤ) ≤ x.roundingLow := by
  have one : (1 : ℚ) ≤ x.significand := by exact_mod_cast x.significand_pos nonzero
  have least : (2 : ℚ) ^ (-1074 : ℤ) ≤ 2 ^ x.binaryExponent :=
    zpow_le_zpow_right₀ one_le_two x.binaryExponent_ge
  have half : (2 : ℚ) ^ (-1075 : ℤ) = 2 ^ (-1074 : ℤ) / 2 := by
    rw [show (-1075 : ℤ) = -1074 - 1 by norm_num, zpow_sub_one₀ two_ne_zero, div_eq_mul_inv]
  have pos : (0 : ℚ) < 2 ^ (-1074 : ℤ) := by positivity
  have scaled : 1 * 2 ^ x.binaryExponent ≤ (x.significand : ℚ) * 2 ^ x.binaryExponent :=
    mul_le_mul_of_nonneg_right one (pos.le.trans least)
  unfold roundingLow
  split <;> linarith

theorem roundingHigh_lt {x : F64} (finite : x.isFinite = true) :
    x.roundingHigh < (2 : ℚ) ^ (1024 : ℤ) := by
  -- the facts that need `positivity` come before the powers that it would try to evaluate
  have nonneg : (0 : ℚ) ≤ (4 * x.significand + 2) / 4 := by positivity
  have pos : (0 : ℚ) < 2 ^ (971 : ℤ) := zpow_pos two_pos _
  have below : (x.significand : ℚ) + 1 ≤ 2 ^ 53 := by exact_mod_cast x.significand_lt
  have greatest : (2 : ℚ) ^ x.binaryExponent ≤ 2 ^ (971 : ℤ) :=
    zpow_le_zpow_right₀ one_le_two (binaryExponent_le finite)
  have top : (2 : ℚ) ^ (1024 : ℤ) = 2 ^ 53 * 2 ^ (971 : ℤ) := by
    rw [← zpow_natCast, ← zpow_add₀ two_ne_zero]
    congr 1
  unfold roundingHigh
  rw [top]
  calc (4 * (x.significand : ℚ) + 2) / 4 * 2 ^ x.binaryExponent
      ≤ (4 * x.significand + 2) / 4 * 2 ^ (971 : ℤ) := mul_le_mul_of_nonneg_left greatest nonneg
    _ < 2 ^ 53 * 2 ^ (971 : ℤ) := by
      apply mul_lt_mul_of_pos_right _ pos
      linarith

end F64

/-! ## Integer powers as natural ones -/

theorem zpow_eq_pow_toNat (b : ℚ) {e : ℤ} (nonneg : 0 ≤ e) : b ^ e = b ^ e.toNat := by
  rw [← zpow_natCast, Int.toNat_of_nonneg nonneg]

theorem zpow_eq_inv_pow_toNat (b : ℚ) {e : ℤ} (negative : e < 0) : b ^ e = (b ^ (-e).toNat)⁻¹ := by
  rw [← zpow_natCast, Int.toNat_of_nonneg (by omega), zpow_neg, inv_inv]

namespace Nearest

/-! ## Rounding a quotient -/

/-- `roundHalfEven n d` is `M` when `n / d` is within a half of `M`, the ends counting for an
even `M`. -/
theorem roundHalfEven_eq {n d M : ℕ} (pos : 0 < d)
    (low : 2 * (M * d) < 2 * n + d ∨ M % 2 = 0 ∧ 2 * (M * d) = 2 * n + d)
    (high : 2 * n < 2 * (M * d) + d ∨ M % 2 = 0 ∧ 2 * n = 2 * (M * d) + d) :
    roundHalfEven n d = M := by
  have whole : n / d * d + n % d = n := by rw [Nat.mul_comm]; exact Nat.div_add_mod n d
  have rest := Nat.mod_lt n pos
  unfold roundHalfEven
  simp only [beq_iff_eq]
  generalize n / d = q at whole ⊢
  generalize n % d = r at whole rest ⊢
  -- compare `M` with the quotient; the products become atoms for `omega`
  rcases lt_trichotomy M q with below | same | above
  · have step : (M + 1) * d ≤ q * d := Nat.mul_le_mul_right d below
    rw [Nat.add_mul, Nat.one_mul] at step
    generalize M * d = Md at *
    generalize q * d = qd at *
    omega
  · subst same
    generalize M * d = Md at *
    split_ifs <;> omega
  · have step : (q + 1) * d ≤ M * d := Nat.mul_le_mul_right d above
    rw [Nat.add_mul, Nat.one_mul] at step
    rcases Nat.lt_or_ge M (q + 2) with near | far
    · have next : M = q + 1 := by omega
      subst next
      rw [Nat.add_mul, Nat.one_mul] at low high
      generalize q * d = qd at *
      split_ifs <;> omega
    · have step2 : (q + 2) * d ≤ M * d := Nat.mul_le_mul_right d far
      rw [Nat.add_mul] at step2
      generalize M * d = Md at *
      generalize q * d = qd at *
      omega

theorem roundHalfEven_eq_of_near {n d M : ℕ} (pos : 0 < d)
    (low : (M : ℚ) - 1 / 2 < n / d ∨ M % 2 = 0 ∧ (n / d : ℚ) = M - 1 / 2)
    (high : (n / d : ℚ) < M + 1 / 2 ∨ M % 2 = 0 ∧ (n / d : ℚ) = M + 1 / 2) :
    roundHalfEven n d = M := by
  have dpos : (0 : ℚ) < d := by exact_mod_cast pos
  apply roundHalfEven_eq pos
  · rcases low with lt | ⟨even, tie⟩
    · left
      have scaled := (lt_div_iff₀ dpos).mp lt
      exact_mod_cast (by linarith : (2 * (M * d) : ℚ) < 2 * n + d)
    · right
      rw [div_eq_iff dpos.ne'] at tie
      exact ⟨even, by exact_mod_cast (by linarith : (2 * (M * d) : ℚ) = 2 * n + d)⟩
  · rcases high with lt | ⟨even, tie⟩
    · left
      rw [div_lt_iff₀ dpos] at lt
      exact_mod_cast (by linarith : (2 * n : ℚ) < 2 * (M * d) + d)
    · right
      rw [div_eq_iff dpos.ne'] at tie
      exact ⟨even, by exact_mod_cast (by linarith : (2 * n : ℚ) = 2 * (M * d) + d)⟩

/-! ## Scaling by a power of two -/

theorem scaleDown_den_pos {num den : ℕ} (pos : 0 < den) (q : ℤ) : 0 < (scaleDown num den q).2 := by
  unfold scaleDown
  split
  · exact Nat.mul_pos pos (by simp [Nat.pow_eq])
  · exact pos

theorem scaleDown_ratio (num den : ℕ) (q : ℤ) :
    ((scaleDown num den q).1 / (scaleDown num den q).2 : ℚ) = num / den / 2 ^ q := by
  unfold scaleDown
  split
  · rename_i nonneg
    simp only [Nat.pow_eq, Nat.cast_mul, Nat.cast_pow, Nat.cast_ofNat, zpow_eq_pow_toNat 2 nonneg]
    rw [div_div]
  · rename_i negative
    simp only [Nat.pow_eq, Nat.cast_mul, Nat.cast_pow, Nat.cast_ofNat,
      zpow_eq_inv_pow_toNat 2 (not_le.1 negative)]
    rw [div_inv_eq_mul, div_mul_eq_mul_div]

/-! ## The binade of a ratio -/

/-- `r` lies in the binade of exponent `a`: `2^52 · 2^a ≤ r < 2^53 · 2^a`. -/
def Binade (r : ℚ) (a : ℤ) : Prop := 2 ^ 52 * 2 ^ a ≤ r ∧ r < 2 ^ 53 * 2 ^ a

theorem binade_unique {r : ℚ} {a b : ℤ} (first : Binade r a) (second : Binade r b) : a = b := by
  -- two exponents a binade apart would put `r` below the first and above the second
  have apart : ∀ {a b : ℤ}, Binade r a → Binade r b → ¬a < b := by
    intro a b first second below
    have power : (2 : ℚ) ^ (a + 1) ≤ 2 ^ b := zpow_le_zpow_right₀ one_le_two below
    rw [zpow_add_one₀ two_ne_zero] at power
    have : (2 : ℚ) ^ 53 * 2 ^ a ≤ 2 ^ 52 * 2 ^ b := by linarith
    linarith [first.2, second.1]
  rcases lt_trichotomy a b with below | same | above
  · exact absurd below (apart first second)
  · exact same
  · exact absurd above (apart second first)

theorem binade_of_scaled {r : ℚ} {a : ℤ} (low : 2 ^ 52 ≤ r / 2 ^ a) (high : r / 2 ^ a < 2 ^ 53) :
    Binade r a := by
  have pos : (0 : ℚ) < 2 ^ a := by positivity
  exact ⟨(le_div_iff₀ pos).mp low, (div_lt_iff₀ pos).mp high⟩

theorem binade_pred {r : ℚ} {a : ℤ} (low : 2 ^ 51 * 2 ^ a ≤ r) (high : r < 2 ^ 52 * 2 ^ a) :
    Binade r (a - 1) := by
  have half : (2 : ℚ) ^ a = 2 * 2 ^ (a - 1) := by
    rw [← zpow_one_add₀ two_ne_zero]
    ring_nf
  rw [half] at low high
  constructor <;> linarith

theorem binade_lt {r : ℚ} {a b : ℤ} (binade : Binade r a) (below : r < 2 ^ 52 * 2 ^ b) : a < b := by
  have powers : (2 : ℚ) ^ a < 2 ^ b := by linarith [binade.1]
  exact (zpow_lt_zpow_iff_right₀ one_lt_two).mp powers

theorem log2_bounds {n : ℕ} (pos : 0 < n) : (2 : ℚ) ^ n.log2 ≤ n ∧ (n : ℚ) < 2 ^ (n.log2 + 1) :=
  ⟨by exact_mod_cast Nat.log2_self_le pos.ne', by exact_mod_cast Nat.lt_log2_self⟩

theorem exponentFor_binade {num den : ℕ} (numPos : 0 < num) (denPos : 0 < den) :
    Binade (num / den) (exponentFor num den) := by
  obtain ⟨numLow, numHigh⟩ := log2_bounds numPos
  obtain ⟨denLow, denHigh⟩ := log2_bounds denPos
  have dpos : (0 : ℚ) < den := by exact_mod_cast denPos
  set q0 : ℤ := (num.log2 : ℤ) - den.log2 - 52 with q0_def
  have power : (2 : ℚ) ^ q0 * 2 ^ den.log2 * 2 ^ 52 = 2 ^ num.log2 := by
    rw [q0_def, ← zpow_natCast, ← zpow_natCast, ← zpow_natCast, ← zpow_add₀ two_ne_zero,
      ← zpow_add₀ two_ne_zero]
    congr 1
    push_cast
    ring
  have twoPos : (0 : ℚ) < 2 ^ q0 := by positivity
  -- the logarithms place the ratio within a factor of two of `2^52 · 2^q0`
  have lower : 2 ^ 51 * 2 ^ q0 < (num / den : ℚ) := by
    rw [lt_div_iff₀ dpos]
    have : (2 : ℚ) ^ (den.log2 + 1) = 2 * 2 ^ den.log2 := by rw [pow_succ]; ring
    have scaled := mul_lt_mul_of_pos_left denHigh twoPos
    rw [this] at scaled
    linarith
  have upper : (num / den : ℚ) < 2 ^ 53 * 2 ^ q0 := by
    rw [div_lt_iff₀ dpos]
    have : (2 : ℚ) ^ (num.log2 + 1) = 2 * 2 ^ num.log2 := by rw [pow_succ]; ring
    have scaled := mul_le_mul_of_nonneg_left denLow twoPos.le
    linarith
  have scaled := scaleDown_ratio num den q0
  have scaledPos : (0 : ℚ) < (scaleDown num den q0).2 := by exact_mod_cast scaleDown_den_pos denPos q0
  unfold exponentFor
  simp only [← q0_def]
  split
  · rename_i below
    have below' : ((scaleDown num den q0).1 : ℚ) < 2 ^ 52 * (scaleDown num den q0).2 := by
      exact_mod_cast (by simpa [Nat.pow_eq] using below)
    rw [← div_lt_iff₀ scaledPos, scaled, div_lt_iff₀ twoPos] at below'
    exact binade_pred lower.le below'
  · rename_i above
    have above' : 2 ^ 52 * ((scaleDown num den q0).2 : ℚ) ≤ (scaleDown num den q0).1 := by
      exact_mod_cast (by simpa [Nat.pow_eq] using above)
    rw [← le_div_iff₀ scaledPos, scaled, le_div_iff₀ twoPos] at above'
    exact ⟨above', upper⟩

/-! ## Packing a significand and an exponent -/

/-- The last step of `ofRatio`: a rounded significand and its exponent as a value, a significand
that carried out of 53 bits moving to the next binade. -/
def pack (m : ℕ) (q : ℤ) : Option F64 :=
  let (m, q) := if m = Nat.pow 2 53 then (Nat.pow 2 52, q + 1) else (m, q)
  if q > 971 then none
  else if m < Nat.pow 2 52 then some ⟨m.toUInt64⟩
  else some (F64.ofFields false (q + 1075).toNat (m - Nat.pow 2 52))

theorem ofRatio_eq (num den : ℕ) :
    ofRatio num den =
      pack (roundHalfEven (scaleDown num den (max (exponentFor num den) (-1074))).1
        (scaleDown num den (max (exponentFor num den) (-1074))).2) (max (exponentFor num den) (-1074)) := by
  unfold ofRatio pack
  dsimp only

theorem pack_fields {x : F64} (positive : x.negative = false) (finite : x.isFinite = true) :
    pack x.significand x.binaryExponent = some x := by
  have inRange := F64.binaryExponent_le finite
  have below := x.significand_lt
  unfold pack
  rw [if_neg (by simp only [Nat.pow_eq]; omega)]
  dsimp only
  rw [if_neg (by omega)]
  by_cases subnormal : x.exponentField = 0
  · rw [if_pos (by rw [F64.significand_of_subnormal subnormal]; simpa [Nat.pow_eq] using x.fractionField_lt),
      F64.significand_of_subnormal subnormal, F64.ofFraction_of_subnormal positive subnormal]
  · have normal := F64.two_pow_le_significand subnormal
    rw [if_neg (by simp only [Nat.pow_eq]; omega)]
    have exponent : (x.binaryExponent + 1075).toNat = x.exponentField := by
      rw [F64.binaryExponent_of_normal subnormal]
      omega
    have fraction : x.significand - Nat.pow 2 52 = x.fractionField := by
      simp [F64.significand, subnormal]
    rw [exponent, fraction, F64.ofFields_fields positive]

theorem pack_carry (q : ℤ) : pack (2 ^ 53) (q - 1) = pack (2 ^ 52) q := by
  have apart : (2 : ℕ) ^ 52 ≠ 2 ^ 53 := by norm_num
  unfold pack
  simp only [Nat.pow_eq, if_true, apart, if_false, sub_add_cancel]

/-! ## Reading a ratio -/

/-- A ratio in the rounding interval of `x`, placed by the reader at the exponent of `x`, reads
as `x`. -/
theorem ofRatio_of_exponent {x : F64} (positive : x.negative = false) (finite : x.isFinite = true)
    {num den : ℕ} (denPos : 0 < den) (near : F64.RoundsTo (num / den) x)
    (exponent : max (exponentFor num den) (-1074) = x.binaryExponent) :
    ofRatio num den = some x := by
  rw [ofRatio_eq, exponent]
  have scaled := scaleDown_ratio num den x.binaryExponent
  obtain ⟨low, high⟩ := near.scaled
  rw [← scaled] at low high
  rw [roundHalfEven_eq_of_near (scaleDown_den_pos denPos _) low high, pack_fields positive finite]

/-- The reader gives back `x` for every ratio in its rounding interval. -/
theorem ofRatio_of_roundsTo {x : F64} (positive : x.negative = false) (finite : x.isFinite = true)
    {num den : ℕ} (numPos : 0 < num) (denPos : 0 < den) (near : F64.RoundsTo (num / den) x) :
    ofRatio num den = some x := by
  have binade := exponentFor_binade numPos denPos
  have pos : (0 : ℚ) < 2 ^ x.binaryExponent := by positivity
  have atLeast := x.binaryExponent_ge
  have below : (x.significand : ℚ) + 1 ≤ 2 ^ 53 := by exact_mod_cast x.significand_lt
  obtain ⟨low, high⟩ := near.scaled
  have underTop : (num / den : ℚ) / 2 ^ x.binaryExponent < 2 ^ 53 := by
    rcases high with lt | ⟨_, same⟩
    · linarith
    · rw [same]
      linarith
  by_cases top : 2 ^ 52 ≤ (num / den : ℚ) / 2 ^ x.binaryExponent
  · -- the ratio lies in the binade of `x`
    apply ofRatio_of_exponent positive finite denPos near
    rw [binade_unique binade (binade_of_scaled top underTop)]
    exact max_eq_left atLeast
  have belowBinade : (num / den : ℚ) < 2 ^ 52 * 2 ^ x.binaryExponent := by
    rw [← div_lt_iff₀ pos]
    exact lt_of_not_ge top
  by_cases subnormal : x.exponentField = 0
  · -- below the least normal value the reader keeps the least exponent
    apply ofRatio_of_exponent positive finite denPos near
    rw [F64.binaryExponent_of_subnormal subnormal] at belowBinade ⊢
    exact max_eq_right (binade_lt binade belowBinade).le
  -- a normal value whose interval reaches below its binade has the least significand
  have normal := F64.two_pow_le_significand subnormal
  have least : x.significand = 2 ^ 52 := by
    have lowEnough : (x.significand : ℚ) < 2 ^ 52 + 1 := by
      rcases low with lt | ⟨_, same⟩
      · linarith
      · linarith
    have : x.significand < 2 ^ 52 + 1 := by exact_mod_cast lowEnough
    omega
  by_cases tight : x.tight = true
  · -- the ratio lies in the binade below and rounds up into the binade of `x`
    have lowEnd : x.roundingLow ≤ (num / den : ℚ) := by
      rcases near.1 with lt | ⟨_, same⟩
      · exact lt.le
      · exact same.ge
    have lowValue : x.roundingLow = (2 ^ 52 - 1 / 4) * 2 ^ x.binaryExponent := by
      simp only [F64.roundingLow, tight, if_true, least]
      push_cast
      ring
    have carried : max (exponentFor num den) (-1074) = x.binaryExponent - 1 := by
      rw [binade_unique binade (binade_pred (by linarith) belowBinade)]
      have : 1 < x.exponentField := by
        simp only [F64.tight, Bool.and_eq_true, beq_iff_eq, decide_eq_true_eq] at tight
        exact tight.2
      rw [F64.binaryExponent_of_normal subnormal] at atLeast ⊢
      exact max_eq_left (by omega)
    have halved : (2 : ℚ) ^ (x.binaryExponent - 1) = 2 ^ x.binaryExponent / 2 := by
      rw [zpow_sub_one₀ two_ne_zero, div_eq_mul_inv]
    have scaled := scaleDown_ratio num den (x.binaryExponent - 1)
    rw [halved] at scaled
    have twice : (num / den : ℚ) / (2 ^ x.binaryExponent / 2) = 2 * ((num / den : ℚ) / 2 ^ x.binaryExponent) := by
      field_simp
    rw [twice] at scaled
    have lowScaled : (2 ^ 52 - 1 / 4 : ℚ) ≤ (num / den : ℚ) / 2 ^ x.binaryExponent := by
      rw [le_div_iff₀ pos]
      linarith
    have rounded : roundHalfEven (scaleDown num den (x.binaryExponent - 1)).1
        (scaleDown num den (x.binaryExponent - 1)).2 = 2 ^ 53 := by
      apply roundHalfEven_eq_of_near (scaleDown_den_pos denPos _)
      · rw [scaled]
        rcases lowScaled.lt_or_eq with lt | same
        · left
          push_cast
          linarith
        · right
          refine ⟨by norm_num, ?_⟩
          rw [← same]
          push_cast
          ring
      · left
        rw [scaled]
        push_cast
        linarith
    rw [ofRatio_eq, carried, rounded, pack_carry, ← least, pack_fields positive finite]
  · -- the least normal binade: the interval is not tight and the reader keeps the least exponent
    have first : x.exponentField = 1 := by
      have fraction : x.fractionField = 0 := by
        have := F64.significand_of_normal subnormal
        omega
      simp only [F64.tight, fraction, beq_self_eq_true, Bool.true_and, decide_eq_true_eq] at tight
      omega
    apply ofRatio_of_exponent positive finite denPos near
    have least : x.binaryExponent = -1074 := by
      rw [F64.binaryExponent_of_normal subnormal, first]
      norm_num
    rw [least] at belowBinade ⊢
    exact max_eq_right (binade_lt binade belowBinade).le

/-! ## Reading a decimal -/

theorem digitCount_bounds {c : ℕ} (pos : 0 < c) :
    10 ^ (digitCount c - 1) ≤ c ∧ c < 10 ^ digitCount c := by
  have length := Nat.length_toDigits_pos (b := 10) (n := c)
  have upper : c < 10 ^ digitCount c :=
    (Nat.length_toDigits_le_iff (by norm_num) length).mp le_rfl
  refine ⟨?_, upper⟩
  by_cases one : digitCount c = 1
  · rw [one]
    norm_num
    omega
  · have shorter : ¬(Nat.toDigits 10 c).length ≤ digitCount c - 1 := by
      unfold digitCount
      omega
    rw [Nat.length_toDigits_le_iff (by norm_num) (by unfold digitCount at one ⊢; omega)] at shorter
    exact Nat.le_of_not_lt shorter

theorem ofDecimal_of_roundsTo {x : F64} (positive : x.negative = false) (finite : x.isFinite = true)
    (nonzero : x.isZero = false) {c : ℕ} {k : ℤ} (near : F64.RoundsTo (c * 10 ^ k) x) :
    ofDecimal false c k = some x := by
  have lowEnd : x.roundingLow ≤ (c * 10 ^ k : ℚ) := by
    rcases near.1 with lt | ⟨_, same⟩
    · exact lt.le
    · exact same.ge
  have highEnd : (c * 10 ^ k : ℚ) ≤ x.roundingHigh := by
    rcases near.2 with lt | ⟨_, same⟩
    · exact lt.le
    · exact same.le
  have least := F64.roundingLow_ge nonzero
  have greatest := F64.roundingHigh_lt finite
  have tenPos : (0 : ℚ) < 10 ^ k := by positivity
  have cPos : 0 < c := by
    have : (0 : ℚ) < c * 10 ^ k := lt_of_lt_of_le (by positivity) (le_trans least lowEnd)
    exact_mod_cast pos_of_mul_pos_left this tenPos.le
  obtain ⟨digitsLow, digitsHigh⟩ := digitCount_bounds cPos
  have cLow : (10 : ℚ) ^ ((digitCount c : ℤ) - 1) ≤ c := by
    have counted : 1 ≤ digitCount c := Nat.length_toDigits_pos
    rw [show (digitCount c : ℤ) - 1 = ((digitCount c - 1 : ℕ) : ℤ) by omega, zpow_natCast]
    exact_mod_cast digitsLow
  have cHigh : (c : ℚ) < 10 ^ (digitCount c : ℤ) := by
    rw [zpow_natCast]
    exact_mod_cast digitsHigh
  unfold ofDecimal
  rw [if_neg cPos.ne']
  dsimp only
  -- the decimal is neither below the least subnormal value nor beyond the greatest finite one
  rw [if_neg, if_neg]
  · simp only [Bool.false_eq_true, if_false, Option.map_id']
    split
    · rename_i nonneg
      apply ofRatio_of_roundsTo positive finite (Nat.mul_pos cPos (by simp [Nat.pow_eq])) Nat.one_pos
      convert near using 1
      rw [zpow_eq_pow_toNat 10 nonneg]
      push_cast [Nat.pow_eq]
      ring
    · rename_i negative
      apply ofRatio_of_roundsTo positive finite cPos (by simp [Nat.pow_eq])
      convert near using 1
      rw [zpow_eq_inv_pow_toNat 10 (not_le.1 negative), Nat.pow_eq]
      push_cast
      ring
  · -- from `10^310` on, the decimal is beyond the greatest finite value
    intro large
    have bound : (10 : ℚ) ^ (310 : ℤ) ≤ 10 ^ ((digitCount c : ℤ) + k - 1) :=
      zpow_le_zpow_right₀ (by norm_num) (by omega)
    have split : (10 : ℚ) ^ ((digitCount c : ℤ) + k - 1) = 10 ^ ((digitCount c : ℤ) - 1) * 10 ^ k := by
      rw [← zpow_add₀ (by norm_num)]
      ring_nf
    have leading : (10 : ℚ) ^ ((digitCount c : ℤ) - 1) * 10 ^ k ≤ c * 10 ^ k :=
      mul_le_mul_of_nonneg_right cLow tenPos.le
    have numbers : (2 : ℚ) ^ (1024 : ℤ) < 10 ^ (310 : ℤ) := by
      have : (2 : ℕ) ^ 1024 < 10 ^ 310 := by decide +kernel
      rw [show (1024 : ℤ) = ((1024 : ℕ) : ℤ) from rfl, show (310 : ℤ) = ((310 : ℕ) : ℤ) from rfl,
        zpow_natCast, zpow_natCast]
      exact_mod_cast this
    have impossible : (c : ℚ) * 10 ^ k < c * 10 ^ k := calc
      (c : ℚ) * 10 ^ k ≤ x.roundingHigh := highEnd
      _ < 2 ^ (1024 : ℤ) := greatest
      _ < 10 ^ (310 : ℤ) := numbers
      _ ≤ 10 ^ ((digitCount c : ℤ) + k - 1) := bound
      _ = 10 ^ ((digitCount c : ℤ) - 1) * 10 ^ k := split
      _ ≤ c * 10 ^ k := leading
    exact lt_irrefl _ impossible
  · -- below `10^-325`, the decimal is below half the least subnormal value
    intro small
    have bound : (10 : ℚ) ^ ((digitCount c : ℤ) + k) ≤ 10 ^ (-325 : ℤ) :=
      zpow_le_zpow_right₀ (by norm_num) (by omega)
    have split : (10 : ℚ) ^ ((digitCount c : ℤ) + k) = 10 ^ (digitCount c : ℤ) * 10 ^ k := by
      rw [← zpow_add₀ (by norm_num)]
    have leading : (c : ℚ) * 10 ^ k < 10 ^ (digitCount c : ℤ) * 10 ^ k :=
      mul_lt_mul_of_pos_right cHigh tenPos
    have numbers : (10 : ℚ) ^ (-325 : ℤ) < 2 ^ (-1075 : ℤ) := by
      have : (2 : ℕ) ^ 1075 < 10 ^ 325 := by decide +kernel
      rw [zpow_neg, zpow_neg, inv_lt_inv₀ (by positivity) (by positivity),
        show (1075 : ℤ) = ((1075 : ℕ) : ℤ) from rfl, show (325 : ℤ) = ((325 : ℕ) : ℤ) from rfl,
        zpow_natCast, zpow_natCast]
      exact_mod_cast this
    have impossible : (c : ℚ) * 10 ^ k < c * 10 ^ k := calc
      (c : ℚ) * 10 ^ k < 10 ^ (digitCount c : ℤ) * 10 ^ k := leading
      _ = 10 ^ ((digitCount c : ℤ) + k) := split.symm
      _ ≤ 10 ^ (-325 : ℤ) := bound
      _ < 2 ^ (-1075 : ℤ) := numbers
      _ ≤ x.roundingLow := least
      _ ≤ c * 10 ^ k := lowEnd
    exact lt_irrefl _ impossible

theorem ofDecimal_negative (c : ℕ) (k : ℤ) : ofDecimal true c k = (ofDecimal false c k).map F64.neg := by
  unfold ofDecimal
  dsimp only
  split
  · rfl
  · split
    · rfl
    · split
      · rfl
      · rw [Option.map_map]
        rfl

/-- A decimal in the rounding interval of a finite non-zero value reads, with the sign of the
value, as the value itself. -/
theorem ofDecimal_sign_of_roundsTo {x : F64} (finite : x.isFinite = true) (nonzero : x.isZero = false)
    {c : ℕ} {k : ℤ} (near : F64.RoundsTo (c * 10 ^ k) x) : ofDecimal x.negative c k = some x := by
  -- read the magnitude, then put the sign back
  have magnitude : ofDecimal false c k = some x.abs :=
    ofDecimal_of_roundsTo (F64.negative_abs x) (by rwa [F64.isFinite_abs])
      (by rwa [F64.isZero_abs]) ((F64.roundsTo_abs _ x).2 near)
  cases sign : x.negative
  · rw [magnitude, F64.abs_of_not_negative sign]
  · rw [ofDecimal_negative, magnitude, Option.map_some, F64.neg_abs_of_negative sign]

end Nearest

end MarketData
