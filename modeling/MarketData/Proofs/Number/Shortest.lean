import MarketData.Proofs.Number.Rounding
import MarketData.Number.Shortest

/-!
# The shortest digits lie in the rounding interval

`Shortest.ofF64` writes a finite non-zero value as digits `d · 10^k` that the reader takes back
to the same value: the decimal lies in the value's rounding interval (`ofF64_roundsTo`).

Every candidate the search returns lies in the interval by construction (`candidate_sound`), so
what needs proof is that the search never falls through to its default. It does not, because the
seventeenth attempt always succeeds (`candidate_isSome`): the estimated decimal exponent never
exceeds the true one (`decimalExponent_le`), so the grid of that attempt is finer than the
interval is wide, as `2^53 < 10^16`. The estimate `⌊b · 0.30103⌋` of `b · log₁₀ 2` is close
enough because `2^100000 ≤ 10^30103 ≤ 10 · 2^100000`.
-/

namespace MarketData.Shortest

/-! ## Ratios -/

/-- The rational a ratio stands for. -/
def Ratio.value (r : Ratio) : ℚ := r.num / r.den

theorem Ratio.cmp_eq_lt {a b : Ratio} (aPos : 0 < a.den) (bPos : 0 < b.den) :
    a.cmp b = .lt ↔ a.value < b.value := by
  unfold Ratio.cmp Ratio.value
  rw [compare_lt_iff_lt, div_lt_div_iff₀ (by exact_mod_cast aPos) (by exact_mod_cast bPos)]
  exact_mod_cast Iff.rfl

theorem Ratio.cmp_eq_eq {a b : Ratio} (aPos : 0 < a.den) (bPos : 0 < b.den) :
    a.cmp b = .eq ↔ a.value = b.value := by
  unfold Ratio.cmp Ratio.value
  rw [compare_eq_iff_eq, div_eq_div_iff (by exact_mod_cast aPos.ne') (by exact_mod_cast bPos.ne')]
  exact_mod_cast Iff.rfl

theorem Ratio.cmp_eq_gt {a b : Ratio} (aPos : 0 < a.den) (bPos : 0 < b.den) :
    a.cmp b = .gt ↔ b.value < a.value := by
  unfold Ratio.cmp Ratio.value
  rw [compare_gt_iff_gt, div_lt_div_iff₀ (by exact_mod_cast bPos) (by exact_mod_cast aPos)]
  exact_mod_cast Iff.rfl

theorem ofBinary_den_pos (m : ℕ) (e : ℤ) : 0 < (ofBinary m e).den := by
  unfold ofBinary
  split
  · exact Nat.one_pos
  · simp [Nat.pow_eq]

theorem ofBinary_value (m : ℕ) (e : ℤ) : (ofBinary m e).value = m * 2 ^ e := by
  unfold ofBinary Ratio.value
  split
  · rename_i nonneg
    rw [zpow_eq_pow_toNat 2 nonneg]
    push_cast [Nat.pow_eq]
    ring
  · rename_i negative
    rw [zpow_eq_inv_pow_toNat 2 (not_le.1 negative)]
    push_cast [Nat.pow_eq]
    rw [div_eq_mul_inv]

theorem ofDecimal_den_pos (c : ℕ) (k : ℤ) : 0 < (ofDecimal c k).den := by
  unfold ofDecimal
  split
  · exact Nat.one_pos
  · simp [Nat.pow_eq]

theorem ofDecimal_value (c : ℕ) (k : ℤ) : (ofDecimal c k).value = c * 10 ^ k := by
  unfold ofDecimal Ratio.value
  split
  · rename_i nonneg
    rw [zpow_eq_pow_toNat 10 nonneg]
    push_cast [Nat.pow_eq]
    ring
  · rename_i negative
    rw [zpow_eq_inv_pow_toNat 10 (not_le.1 negative)]
    push_cast [Nat.pow_eq]
    rw [div_eq_mul_inv]

/-! ## The interval -/

section Interval

variable {m : ℕ} {q : ℤ} {tight : Bool}

theorem two_zpow_sub_two (q : ℤ) : (2 : ℚ) ^ (q - 2) = 2 ^ q / 4 := by
  rw [zpow_sub₀ two_ne_zero]
  norm_num

theorem interval_value (m : ℕ) (q : ℤ) (tight : Bool) :
    (interval m q tight).value.value = m * 2 ^ q := by
  simp only [interval, ofBinary_value, two_zpow_sub_two]
  push_cast
  ring

theorem interval_lo (positive : 0 < m) :
    (interval m q tight).lo.value = (4 * m - if tight then 1 else 2) / 4 * 2 ^ q := by
  simp only [interval, ofBinary_value, two_zpow_sub_two]
  split
  · rw [Nat.cast_sub (by omega)]
    push_cast
    ring
  · rw [Nat.cast_sub (by omega)]
    push_cast
    ring

theorem interval_hi (m : ℕ) (q : ℤ) (tight : Bool) :
    (interval m q tight).hi.value = (4 * m + 2) / 4 * 2 ^ q := by
  simp only [interval, ofBinary_value, two_zpow_sub_two]
  push_cast
  ring

/-- What `contains` decides: the decimal lies strictly between the ends, or on an end that belongs
to the interval. -/
theorem contains_iff (i : Interval) (loPos : 0 < i.lo.den) (hiPos : 0 < i.hi.den) (c : ℕ) (k : ℤ) :
    i.contains c k = true ↔
      (i.lo.value < c * 10 ^ k ∨ i.inclusive = true ∧ (c * 10 ^ k : ℚ) = i.lo.value) ∧
        ((c * 10 ^ k : ℚ) < i.hi.value ∨ i.inclusive = true ∧ (c * 10 ^ k : ℚ) = i.hi.value) := by
  have decimal := ofDecimal_den_pos c k
  rw [← ofDecimal_value]
  unfold Interval.contains
  dsimp only
  -- one case for each pair of comparisons with the two ends
  cases low : (ofDecimal c k).cmp i.lo <;> cases high : (ofDecimal c k).cmp i.hi <;>
    simp only [Ratio.cmp_eq_lt decimal loPos, Ratio.cmp_eq_eq decimal loPos,
      Ratio.cmp_eq_gt decimal loPos, Ratio.cmp_eq_lt decimal hiPos, Ratio.cmp_eq_eq decimal hiPos,
      Ratio.cmp_eq_gt decimal hiPos] at low high <;>
    grind

end Interval

/-! ## The decimal exponent -/

theorem estimate_le_of_nonneg {b : ℤ} (nonneg : 0 ≤ b) (bounded : b ≤ 200000) :
    (10 : ℚ) ^ ((b * 30103).fdiv 100000 - 2) ≤ 2 ^ b := by
  rw [Int.fdiv_eq_ediv_of_nonneg _ (by norm_num)]
  by_cases below : b * 30103 / 100000 - 2 < 0
  · exact le_trans (zpow_le_one_of_nonpos₀ (by norm_num) below.le) (one_le_zpow₀ one_le_two nonneg)
  obtain ⟨a, estimate⟩ : ∃ a : ℕ, b * 30103 / 100000 - 2 = a :=
    ⟨(b * 30103 / 100000 - 2).toNat, (Int.toNat_of_nonneg (by omega)).symm⟩
  obtain ⟨n, magnitude⟩ : ∃ n : ℕ, b = n := ⟨b.toNat, (Int.toNat_of_nonneg nonneg).symm⟩
  rw [estimate, magnitude, zpow_natCast, zpow_natCast]
  have scaled : a * 100000 + 200000 ≤ n * 30103 := by omega
  have big : (10 : ℕ) ^ 30103 ≤ 10 * 2 ^ 100000 := by decide +kernel
  -- raised to the power 100000, the comparison is one of exact integers
  have raised : (10 ^ a) ^ 100000 * 10 ^ 200000 ≤ (2 ^ n) ^ 100000 * 10 ^ 200000 := calc
    (10 ^ a) ^ 100000 * 10 ^ 200000 = 10 ^ (a * 100000 + 200000) := by rw [← pow_mul, ← pow_add]
    _ ≤ 10 ^ (n * 30103) := Nat.pow_le_pow_right (by norm_num) scaled
    _ = (10 ^ 30103) ^ n := by rw [← pow_mul, mul_comm]
    _ ≤ (10 * 2 ^ 100000) ^ n := Nat.pow_le_pow_left big n
    _ = 10 ^ n * (2 ^ n) ^ 100000 := by rw [mul_pow, ← pow_mul, ← pow_mul, mul_comm 100000 n]
    _ ≤ 10 ^ 200000 * (2 ^ n) ^ 100000 :=
      Nat.mul_le_mul_right _ (Nat.pow_le_pow_right (by norm_num) (by omega))
    _ = (2 ^ n) ^ 100000 * 10 ^ 200000 := Nat.mul_comm _ _
  have natural : 10 ^ a ≤ 2 ^ n :=
    (Nat.pow_le_pow_iff_left (by norm_num)).mp (Nat.le_of_mul_le_mul_right raised (by positivity))
  exact_mod_cast natural

theorem estimate_le_of_neg {b : ℤ} (negative : b < 0) :
    (10 : ℚ) ^ ((b * 30103).fdiv 100000 - 2) ≤ 2 ^ b := by
  rw [Int.fdiv_eq_ediv_of_nonneg _ (by norm_num)]
  obtain ⟨e, estimate⟩ : ∃ e : ℕ, b * 30103 / 100000 = -e :=
    ⟨(-(b * 30103 / 100000)).toNat, by omega⟩
  obtain ⟨n, magnitude⟩ : ∃ n : ℕ, b = -n := ⟨(-b).toNat, by omega⟩
  have scaled : n * 30103 ≤ e * 100000 := by omega
  have big : (2 : ℕ) ^ 100000 ≤ 10 ^ 30103 := by decide +kernel
  have raised : (2 ^ n) ^ 100000 ≤ (10 ^ e) ^ 100000 := calc
    (2 ^ n) ^ 100000 = (2 ^ 100000) ^ n := by rw [← pow_mul, ← pow_mul, mul_comm]
    _ ≤ (10 ^ 30103) ^ n := Nat.pow_le_pow_left big n
    _ = 10 ^ (n * 30103) := by rw [← pow_mul, mul_comm]
    _ ≤ 10 ^ (e * 100000) := Nat.pow_le_pow_right (by norm_num) scaled
    _ = (10 ^ e) ^ 100000 := pow_mul _ _ _
  have natural : 2 ^ n ≤ 10 ^ (e + 2) :=
    le_trans ((Nat.pow_le_pow_iff_left (by norm_num)).mp raised)
      (Nat.pow_le_pow_right (by norm_num) (by omega))
  have cast : (2 : ℚ) ^ n ≤ 10 ^ (e + 2) := by exact_mod_cast natural
  rw [estimate, magnitude, show -(e : ℤ) - 2 = -((e + 2 : ℕ) : ℤ) by push_cast; ring, zpow_neg,
    zpow_neg, zpow_natCast, zpow_natCast]
  exact inv_anti₀ (by positivity) cast

theorem estimate_le {b : ℤ} (bounded : b ≤ 200000) :
    (10 : ℚ) ^ ((b * 30103).fdiv 100000 - 2) ≤ 2 ^ b := by
  rcases lt_or_ge b 0 with negative | nonneg
  · exact estimate_le_of_neg negative
  · exact estimate_le_of_nonneg nonneg bounded

section Exponent

variable {v : Ratio}

theorem pow_le_of_down (positive : 0 < v.den) {e : ℤ} (below : (10 : ℚ) ^ (e - 1) ≤ v.value) :
    (10 : ℚ) ^ (if (ofDecimal 1 e).cmp v == .gt then e - 1 else e) ≤ v.value := by
  split
  · exact below
  · rename_i notAbove
    have notGt : ¬(ofDecimal 1 e).cmp v = .gt := by simpa using notAbove
    rw [Ratio.cmp_eq_gt (ofDecimal_den_pos 1 e) positive, ofDecimal_value] at notGt
    push_cast at notGt
    linarith

theorem pow_le_of_down_pred (positive : 0 < v.den) {e : ℤ} (below : (10 : ℚ) ^ (e - 2) ≤ v.value) :
    (10 : ℚ) ^ ((if (ofDecimal 1 e).cmp v == .gt then e - 1 else e) - 1) ≤ v.value := by
  split
  · rw [show e - 1 - 1 = e - 2 by ring]
    exact below
  · rename_i notAbove
    have notGt : ¬(ofDecimal 1 e).cmp v = .gt := by simpa using notAbove
    rw [Ratio.cmp_eq_gt (ofDecimal_den_pos 1 e) positive, ofDecimal_value] at notGt
    push_cast at notGt
    have step : (10 : ℚ) ^ (e - 1) ≤ 10 ^ e := zpow_le_zpow_right₀ (by norm_num) (by omega)
    linarith

theorem pow_le_of_up (positive : 0 < v.den) {e : ℤ} (holds : (10 : ℚ) ^ e ≤ v.value) :
    (10 : ℚ) ^ (if (ofDecimal 1 (e + 1)).cmp v != .gt then e + 1 else e) ≤ v.value := by
  split
  · rename_i notAbove
    have notGt : ¬(ofDecimal 1 (e + 1)).cmp v = .gt := by simpa using notAbove
    rw [Ratio.cmp_eq_gt (ofDecimal_den_pos 1 _) positive, ofDecimal_value] at notGt
    push_cast at notGt
    linarith
  · exact holds

/-- The corrected estimate is a power of ten at most `v`. -/
theorem decimalExponent_le (positive : 0 < v.den) {b : ℤ}
    (estimate : (10 : ℚ) ^ ((b * 30103).fdiv 100000 - 2) ≤ v.value) :
    (10 : ℚ) ^ decimalExponent v b ≤ v.value := by
  unfold decimalExponent
  dsimp only
  apply pow_le_of_up positive
  apply pow_le_of_up positive
  apply pow_le_of_down positive
  exact pow_le_of_down_pred positive estimate

end Exponent

/-! ## Candidates on a grid -/

/-- Every candidate is in the interval, at the exponent of its grid. -/
theorem candidate_sound {i : Interval} {k k' : ℤ} {c : ℕ} (found : i.candidate k = some (c, k')) :
    k' = k ∧ i.contains c k = true := by
  unfold Interval.candidate at found
  dsimp only at found
  generalize i.value.onGrid k = scaled at found
  generalize scaled.num / scaled.den = below at found
  generalize (if below * scaled.den == scaled.num then below else below + 1) = above at found
  simp only [Bool.and_eq_true, decide_eq_true_eq] at found
  -- each branch returns the neighbour below or above, and only when it is in the interval
  split_ifs at found
  · rename_i both _
    cases found
    exact ⟨rfl, both.1.2⟩
  · rename_i both _ _
    cases found
    exact ⟨rfl, both.2⟩
  · rename_i both _ _ _
    cases found
    exact ⟨rfl, both.1.2⟩
  · rename_i both _ _ _
    cases found
    exact ⟨rfl, both.2⟩
  · rename_i onlyBelow
    cases found
    exact ⟨rfl, onlyBelow.2⟩
  · rename_i onlyAbove
    cases found
    exact ⟨rfl, onlyAbove⟩

theorem onGrid_den_pos {v : Ratio} (positive : 0 < v.den) (k : ℤ) : 0 < (v.onGrid k).den := by
  unfold Ratio.onGrid
  split
  · exact Nat.mul_pos positive (by simp [Nat.pow_eq])
  · exact positive

theorem onGrid_value (v : Ratio) (k : ℤ) : (v.onGrid k).value = v.value / 10 ^ k := by
  unfold Ratio.onGrid Ratio.value
  split
  · rename_i nonneg
    rw [zpow_eq_pow_toNat 10 nonneg]
    push_cast [Nat.pow_eq]
    rw [div_div]
  · rename_i negative
    rw [zpow_eq_inv_pow_toNat 10 (not_le.1 negative)]
    push_cast [Nat.pow_eq]
    rw [div_inv_eq_mul, div_mul_eq_mul_div]

theorem div_bounds (n : ℕ) {d : ℕ} (pos : 0 < d) :
    ((n / d : ℕ) : ℚ) ≤ n / d ∧ (n / d : ℚ) < (n / d : ℕ) + 1 := by
  have whole := Nat.div_add_mod n d
  have rest := Nat.mod_lt n pos
  have dpos : (0 : ℚ) < d := by exact_mod_cast pos
  have cast : (n : ℚ) = d * (n / d : ℕ) + (n % d : ℕ) := by exact_mod_cast whole.symm
  constructor
  · rw [le_div_iff₀ dpos, cast]
    have : (0 : ℚ) ≤ (n % d : ℕ) := by positivity
    linarith
  · rw [div_lt_iff₀ dpos, cast]
    have : ((n % d : ℕ) : ℚ) < d := by exact_mod_cast rest
    linarith

/-- A grid finer than the interval is wide on either side holds a candidate: the neighbour
within half a step of the value lies inside. -/
theorem candidate_isSome {i : Interval} (loPos : 0 < i.lo.den) (valuePos : 0 < i.value.den)
    (hiPos : 0 < i.hi.den) {k : ℤ} (low : i.lo.value < i.value.value - 10 ^ k / 2)
    (high : i.value.value + 10 ^ k / 2 < i.hi.value) (large : 10 ^ k ≤ i.value.value) :
    (i.candidate k).isSome := by
  have step : (0 : ℚ) < 10 ^ k := by positivity
  have scaledValue : ((i.value.onGrid k).num / (i.value.onGrid k).den : ℚ) =
      i.value.value / 10 ^ k := onGrid_value i.value k
  have denPos := onGrid_den_pos valuePos k
  unfold Interval.candidate
  dsimp only
  generalize i.value.onGrid k = scaled at scaledValue denPos ⊢
  obtain ⟨floorLow, floorHigh⟩ := div_bounds scaled.num denPos
  rw [scaledValue] at floorLow floorHigh
  have atLeastOne : (1 : ℚ) ≤ i.value.value / 10 ^ k := by rwa [le_div_iff₀ step, one_mul]
  have times : i.value.value / 10 ^ k * 10 ^ k = i.value.value := div_mul_cancel₀ _ step.ne'
  -- the neighbour below when the value is at most half a step above it, else the one above
  have inside : (decide (scaled.num / scaled.den ≠ 0) && i.contains (scaled.num / scaled.den) k) = true ∨
      i.contains (if scaled.num / scaled.den * scaled.den == scaled.num then scaled.num / scaled.den
        else scaled.num / scaled.den + 1) k = true := by
    generalize belowDef : scaled.num / scaled.den = below at floorLow floorHigh ⊢
    rcases le_or_gt (i.value.value / 10 ^ k - below) (1 / 2) with near | far
    · left
      have belowPos : below ≠ 0 := by
        rintro rfl
        rw [Nat.cast_zero] at floorHigh
        linarith
      simp only [ne_eq, belowPos, not_false_eq_true, decide_true, Bool.true_and]
      rw [contains_iff i loPos hiPos]
      -- both bounds are the distance to the neighbour below, taken one step of the grid
      have lower : i.value.value - 10 ^ k / 2 ≤ below * 10 ^ k := by
        have scaled := mul_le_mul_of_nonneg_right near step.le
        rw [sub_mul, times] at scaled
        linarith
      have upper : (below : ℚ) * 10 ^ k ≤ i.value.value := by
        have scaled := mul_le_mul_of_nonneg_right floorLow step.le
        rwa [times] at scaled
      exact ⟨.inl (by linarith), .inl (by linarith)⟩
    · right
      have inexact : ¬(below * scaled.den == scaled.num) = true := by
        simp only [beq_iff_eq]
        intro exact
        have : (below : ℚ) = scaled.num / scaled.den := by
          rw [eq_div_iff (by exact_mod_cast denPos.ne')]
          exact_mod_cast exact
        rw [scaledValue] at this
        linarith
      rw [if_neg inexact, contains_iff i loPos hiPos]
      push_cast
      have upper : ((below : ℚ) + 1) * 10 ^ k < i.value.value + 10 ^ k / 2 := by
        have scaled := mul_lt_mul_of_pos_right far step
        rw [sub_mul, times] at scaled
        linarith
      have lower : i.value.value < ((below : ℚ) + 1) * 10 ^ k := by
        have scaled := mul_lt_mul_of_pos_right floorHigh step
        rwa [times] at scaled
      exact ⟨.inl (by linarith), .inl (by linarith)⟩
  split_ifs with both onlyBelow onlyAbove <;> simp_all

/-! ## The search -/

/-- The digits of a positive significand below `2^53` lie in its rounding interval; a tight
interval belongs to the least significand of a binade. -/
theorem digits_contains {m : ℕ} {q : ℤ} {tight : Bool} (positive : 0 < m) (below : m < 2 ^ 53)
    (least : tight = true → m = 2 ^ 52) (range : q ≤ 971) :
    (interval m q tight).contains (digits m q tight).1 (digits m q tight).2 = true := by
  have loPos : 0 < (interval m q tight).lo.den := ofBinary_den_pos _ _
  have valuePos : 0 < (interval m q tight).value.den := ofBinary_den_pos _ _
  have hiPos : 0 < (interval m q tight).hi.den := ofBinary_den_pos _ _
  have power : (0 : ℚ) < 2 ^ q := by positivity
  have mPos : (1 : ℚ) ≤ m := by exact_mod_cast positive
  have mSmall : (m : ℚ) < 2 ^ 53 := by exact_mod_cast below
  -- the estimate starts from the binary magnitude `log₂ m + q`, at most 1023
  have magnitude : (2 : ℚ) ^ ((Nat.log2 m : ℤ) + q) ≤ (interval m q tight).value.value := by
    rw [interval_value, zpow_add₀ two_ne_zero, zpow_natCast]
    exact mul_le_mul_of_nonneg_right (by exact_mod_cast Nat.log2_self_le positive.ne') power.le
  have logBound : Nat.log2 m < 53 := (Nat.log2_lt positive.ne').mpr below
  have exponent := decimalExponent_le valuePos (le_trans (estimate_le (by omega)) magnitude)
  rw [interval_value] at exponent
  unfold digits
  dsimp only
  generalize decimalExponent (interval m q tight).value ((Nat.log2 m : ℤ) + q) = e at exponent ⊢
  -- the seventeenth attempt, on the grid `10^(e - 16)`
  have grid : (10 : ℚ) ^ (e - 16) * 10 ^ 16 = 10 ^ e := by
    rw [← zpow_natCast, ← zpow_add₀ (by norm_num), Nat.cast_ofNat, sub_add_cancel]
  have finer : (10 : ℚ) ^ (e - 16) * 10 ^ 16 ≤ m * 2 ^ q := by
    rw [grid]
    exact exponent
  -- a step of that grid is below `2^q`, the unit of the value's last place, as `2^53 < 10^16`
  have bounded : (m : ℚ) * 2 ^ q < 2 ^ 53 * 2 ^ q := mul_lt_mul_of_pos_right mSmall power
  have attempt : ((interval m q tight).candidate (e - 16)).isSome := by
    apply candidate_isSome loPos valuePos hiPos
    · rw [interval_lo positive, interval_value]
      cases tight
      · simp only [Bool.false_eq_true, if_false]
        linarith
      · have leastM : (m : ℚ) = 2 ^ 52 := by exact_mod_cast least rfl
        simp only [if_true]
        rw [leastM] at finer ⊢
        linarith
    · rw [interval_hi, interval_value]
      linarith
    · rw [interval_value]
      linarith [zpow_pos (by norm_num : (0 : ℚ) < 10) (e - 16)]
  obtain ⟨found, foundEq⟩ : ∃ y, (List.range 17).findSome?
      (fun n => (interval m q tight).candidate (e - ((n + 1 : ℕ) : ℤ) + 1)) = some y := by
    rw [← Option.isSome_iff_exists, List.findSome?_isSome_iff]
    refine ⟨16, by simp, ?_⟩
    rw [show e - ((16 + 1 : ℕ) : ℤ) + 1 = e - 16 by omega]
    exact attempt
  rw [foundEq, Option.getD_some]
  obtain ⟨n, -, candidate⟩ := List.exists_of_findSome?_eq_some foundEq
  obtain ⟨c, k⟩ := found
  obtain ⟨rfl, inside⟩ := candidate_sound candidate
  exact inside

theorem trim_value (d : ℕ) (k : ℤ) (fuel : ℕ) :
    ((trim d k fuel).1 : ℚ) * 10 ^ (trim d k fuel).2 = d * 10 ^ k := by
  induction fuel generalizing d k with
  | zero => rfl
  | succ fuel ih =>
    unfold trim
    split
    · rename_i zeros
      simp only [Bool.and_eq_true, decide_eq_true_eq, beq_iff_eq] at zeros
      rw [ih, zpow_add_one₀ (by norm_num)]
      obtain ⟨n, rfl⟩ := Nat.dvd_of_mod_eq_zero zeros.2
      rw [Nat.mul_div_cancel_left n (by norm_num)]
      push_cast
      ring
    · rfl

/-- The shortest digits of a finite non-zero value lie in its rounding interval. -/
theorem ofF64_roundsTo {x : F64} (finite : x.isFinite = true) (nonzero : x.isZero = false) :
    F64.RoundsTo ((ofF64 x).1 * 10 ^ (ofF64 x).2) x := by
  have positive := x.significand_pos nonzero
  have least : (x.fractionField == 0 && x.exponentField > 1) = true → x.significand = 2 ^ 52 := by
    intro tight
    simp only [Bool.and_eq_true, beq_iff_eq, decide_eq_true_eq] at tight
    rw [F64.significand_of_normal (by omega), tight.1]
    simp
  have inside := digits_contains positive x.significand_lt least (F64.binaryExponent_le finite)
  rw [contains_iff _ (ofBinary_den_pos _ _) (ofBinary_den_pos _ _), interval_lo positive,
    interval_hi] at inside
  have even : (interval x.significand x.binaryExponent x.tight).inclusive = true ↔
      x.significand % 2 = 0 := by
    simp [interval]
  unfold ofF64
  dsimp only
  rw [trim_value]
  unfold F64.RoundsTo F64.roundingLow F64.roundingHigh
  rw [← even]
  exact inside

end MarketData.Shortest
