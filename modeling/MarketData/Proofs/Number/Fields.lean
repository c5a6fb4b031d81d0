import Mathlib
import MarketData.Number.Float

/-!
# The fields of a binary64 value

The sign bit, the exponent field and the fraction field are the quotient by `2^63`, the quotient
by `2^52` modulo `2^11`, and the remainder modulo `2^52` of the bits read as a natural number.
Every statement about a value's bits is then arithmetic on that number: clearing or flipping the
sign keeps the other two fields, and the three fields put back together give the value again.
-/

namespace MarketData.F64

theorem negative_eq (x : F64) : x.negative = decide (2 ^ 63 ≤ x.bits.toNat) := by
  have small := x.bits.toNat_lt
  have shifted : (x.bits >>> 63).toNat = x.bits.toNat / 2 ^ 63 := by
    rw [UInt64.toNat_shiftRight, Nat.shiftRight_eq_div_pow]
    rfl
  simp only [Nat.reducePow] at small shifted ⊢
  unfold negative
  by_cases top : 9223372036854775808 ≤ x.bits.toNat
  · have one : x.bits >>> 63 = 1 := by
      apply UInt64.toNat_inj.1
      rw [shifted, UInt64.toNat_one]
      omega
    rw [one, beq_self_eq_true, decide_eq_true top]
  · have other : x.bits >>> 63 ≠ 1 := fun one => by
      have same := congrArg UInt64.toNat one
      rw [shifted, UInt64.toNat_one] at same
      omega
    rw [beq_eq_false_iff_ne.2 other, decide_eq_false top]

theorem exponentField_eq (x : F64) : x.exponentField = x.bits.toNat / 2 ^ 52 % 2 ^ 11 := by
  have mask : (0x7FF : Nat) = 2 ^ 11 - 1 := rfl
  simp only [exponentField, UInt64.toNat_and, UInt64.toNat_shiftRight, Nat.shiftRight_eq_div_pow,
    UInt64.reduceToNat, Nat.reduceMod, mask, Nat.and_two_pow_sub_one_eq_mod]

theorem fractionField_eq (x : F64) : x.fractionField = x.bits.toNat % 2 ^ 52 := by
  have mask : (0xFFFFFFFFFFFFF : Nat) = 2 ^ 52 - 1 := rfl
  simp only [fractionField, UInt64.toNat_and, UInt64.reduceToNat, mask,
    Nat.and_two_pow_sub_one_eq_mod]

theorem isFinite_eq_false_iff (x : F64) : x.isFinite = false ↔ x.isNaN = true ∨ x.isInf = true := by
  unfold isFinite isNaN isInf
  by_cases zero : x.fractionField = 0 <;> simp [zero]

theorem exponentField_lt (x : F64) : x.exponentField < 2048 := by
  rw [exponentField_eq]
  exact Nat.mod_lt _ (by norm_num)

theorem fractionField_lt (x : F64) : x.fractionField < 2 ^ 52 := by
  rw [fractionField_eq]
  exact Nat.mod_lt _ (by norm_num)

theorem bits_toNat (x : F64) :
    x.bits.toNat = (if x.negative then 2 ^ 63 else 0) + x.exponentField * 2 ^ 52 + x.fractionField := by
  have small := x.bits.toNat_lt
  rw [negative_eq, exponentField_eq, fractionField_eq]
  by_cases top : 2 ^ 63 ≤ x.bits.toNat
  · rw [if_pos (decide_eq_true top)]
    simp only [Nat.reducePow] at *
    omega
  · rw [if_neg (by simpa using top)]
    simp only [Nat.reducePow] at *
    omega

theorem toNat_inj {x y : F64} (same : x.bits.toNat = y.bits.toNat) : x = y := by
  cases x
  cases y
  congr
  exact UInt64.toNat_inj.1 same

theorem eq_of_fields {x y : F64} (sign : x.negative = y.negative)
    (exponent : x.exponentField = y.exponentField) (fraction : x.fractionField = y.fractionField) :
    x = y := by
  apply toNat_inj
  rw [bits_toNat x, bits_toNat y, sign, exponent, fraction]

/-! ## Clearing and flipping the sign -/

theorem abs_toNat (x : F64) : x.abs.bits.toNat = x.bits.toNat % 2 ^ 63 := by
  have mask : (0x7FFFFFFFFFFFFFFF : Nat) = 2 ^ 63 - 1 := rfl
  simp only [abs, UInt64.toNat_and, UInt64.reduceToNat, mask, Nat.and_two_pow_sub_one_eq_mod]

theorem neg_toNat (x : F64) :
    x.neg.bits.toNat = (if x.negative then 0 else 2 ^ 63) + x.bits.toNat % 2 ^ 63 := by
  have small := x.bits.toNat_lt
  have flipped : x.neg.bits.toNat = x.bits.toNat ^^^ 2 ^ 63 := by
    simp only [neg, UInt64.toNat_xor, UInt64.reduceToNat, Nat.reducePow]
  have low : (x.bits.toNat ^^^ 2 ^ 63) % 2 ^ 63 = x.bits.toNat % 2 ^ 63 := by
    rw [Nat.xor_mod_two_pow, Nat.mod_self, Nat.xor_zero]
  have high : (x.bits.toNat ^^^ 2 ^ 63) / 2 ^ 63 = x.bits.toNat / 2 ^ 63 ^^^ 1 := by
    rw [Nat.xor_div_two_pow, Nat.div_self (by norm_num)]
  have whole := Nat.div_add_mod (x.bits.toNat ^^^ 2 ^ 63) (2 ^ 63)
  rw [flipped, negative_eq]
  -- the sign bit is the quotient by 2^63, which is 0 or 1
  by_cases top : 2 ^ 63 ≤ x.bits.toNat
  · have one : x.bits.toNat / 2 ^ 63 = 1 := by omega
    rw [one] at high
    rw [if_pos (decide_eq_true top)]
    simp only [Nat.reduceXor] at high
    omega
  · have zero : x.bits.toNat / 2 ^ 63 = 0 := by omega
    rw [zero] at high
    rw [if_neg (by simpa using top)]
    simp only [Nat.reduceXor] at high
    omega

@[simp] theorem negative_abs (x : F64) : x.abs.negative = false := by
  rw [negative_eq, abs_toNat]
  simpa using Nat.mod_lt x.bits.toNat (by norm_num : 0 < 2 ^ 63)

@[simp] theorem exponentField_abs (x : F64) : x.abs.exponentField = x.exponentField := by
  rw [exponentField_eq, exponentField_eq, abs_toNat]
  have small := x.bits.toNat_lt
  omega

@[simp] theorem fractionField_abs (x : F64) : x.abs.fractionField = x.fractionField := by
  rw [fractionField_eq, fractionField_eq, abs_toNat]
  omega

@[simp] theorem isFinite_abs (x : F64) : x.abs.isFinite = x.isFinite := by
  simp only [isFinite, exponentField_abs]

@[simp] theorem isZero_abs (x : F64) : x.abs.isZero = x.isZero := by
  simp only [isZero, exponentField_abs, fractionField_abs]

@[simp] theorem negative_neg (x : F64) : x.neg.negative = !x.negative := by
  have low := Nat.mod_lt x.bits.toNat (by norm_num : 0 < 2 ^ 63)
  rw [negative_eq x.neg, neg_toNat, negative_eq x]
  by_cases top : 2 ^ 63 ≤ x.bits.toNat
  · rw [decide_eq_true top, if_pos rfl, Bool.not_true, decide_eq_false (by omega)]
  · rw [decide_eq_false top, if_neg Bool.false_ne_true, Bool.not_false, decide_eq_true (by omega)]

@[simp] theorem exponentField_neg (x : F64) : x.neg.exponentField = x.exponentField := by
  have small := x.bits.toNat_lt
  rw [exponentField_eq, exponentField_eq, neg_toNat]
  split <;> omega

@[simp] theorem fractionField_neg (x : F64) : x.neg.fractionField = x.fractionField := by
  rw [fractionField_eq, fractionField_eq, neg_toNat]
  split <;> omega

theorem abs_of_not_negative {x : F64} (positive : x.negative = false) : x.abs = x :=
  eq_of_fields (by simp [positive]) (exponentField_abs x) (fractionField_abs x)

theorem neg_abs_of_negative {x : F64} (sign : x.negative = true) : x.abs.neg = x :=
  eq_of_fields (by simp [sign]) (by simp) (by simp)

/-! ## Significand and exponent -/

theorem significand_lt (x : F64) : x.significand < 2 ^ 53 := by
  have fraction := x.fractionField_lt
  unfold significand
  split <;> simp only [Nat.pow_eq, Nat.reducePow] at * <;> omega

theorem two_pow_le_significand {x : F64} (normal : x.exponentField ≠ 0) : 2 ^ 52 ≤ x.significand := by
  simp only [significand, beq_iff_eq, normal, if_false, Nat.pow_eq]
  exact Nat.le_add_left _ _

theorem significand_of_subnormal {x : F64} (subnormal : x.exponentField = 0) :
    x.significand = x.fractionField := by
  simp [significand, subnormal]

theorem significand_of_normal {x : F64} (normal : x.exponentField ≠ 0) :
    x.significand = x.fractionField + 2 ^ 52 := by
  simp [significand, normal, Nat.pow_eq]

theorem binaryExponent_of_subnormal {x : F64} (subnormal : x.exponentField = 0) :
    x.binaryExponent = -1074 := by
  simp [binaryExponent, subnormal]

theorem binaryExponent_of_normal {x : F64} (normal : x.exponentField ≠ 0) :
    x.binaryExponent = x.exponentField - 1075 := by
  simp [binaryExponent, normal]

theorem binaryExponent_ge (x : F64) : -1074 ≤ x.binaryExponent := by
  by_cases subnormal : x.exponentField = 0
  · rw [binaryExponent_of_subnormal subnormal]
  · rw [binaryExponent_of_normal subnormal]
    omega

theorem binaryExponent_le {x : F64} (finite : x.isFinite = true) : x.binaryExponent ≤ 971 := by
  have below := x.exponentField_lt
  have notTop : x.exponentField ≠ 0x7FF := by simpa [isFinite] using finite
  by_cases subnormal : x.exponentField = 0
  · rw [binaryExponent_of_subnormal subnormal]
    decide
  · rw [binaryExponent_of_normal subnormal]
    omega

theorem significand_pos {x : F64} (nonzero : x.isZero = false) : 0 < x.significand := by
  by_cases subnormal : x.exponentField = 0
  · rw [significand_of_subnormal subnormal]
    simp only [isZero, subnormal, beq_self_eq_true, Bool.true_and, beq_eq_false_iff_ne] at nonzero
    omega
  · have := two_pow_le_significand subnormal
    omega

/-! ## Putting the fields back together -/

theorem ofFields_toNat {e f : Nat} (exponent : e < 2048) (fraction : f < 2 ^ 52) :
    (ofFields false e f).bits.toNat = e * 2 ^ 52 + f := by
  simp only [ofFields, Bool.false_eq_true, if_false, Nat.zero_mul, Nat.zero_add, Nat.pow_eq,
    Nat.toUInt64_eq, UInt64.toNat_ofNat']
  apply Nat.mod_eq_of_lt
  simp only [Nat.reducePow] at *
  omega

theorem negative_ofFields {e f : Nat} (exponent : e < 2048) (fraction : f < 2 ^ 52) :
    (ofFields false e f).negative = false := by
  rw [negative_eq, ofFields_toNat exponent fraction]
  simp only [Nat.reducePow] at *
  simp only [decide_eq_false_iff_not, not_le]
  omega

theorem exponentField_ofFields {e f : Nat} (exponent : e < 2048) (fraction : f < 2 ^ 52) :
    (ofFields false e f).exponentField = e := by
  rw [exponentField_eq, ofFields_toNat exponent fraction]
  simp only [Nat.reducePow] at *
  omega

theorem fractionField_ofFields {e f : Nat} (exponent : e < 2048) (fraction : f < 2 ^ 52) :
    (ofFields false e f).fractionField = f := by
  rw [fractionField_eq, ofFields_toNat exponent fraction]
  simp only [Nat.reducePow] at *
  omega

theorem ofFields_fields {x : F64} (positive : x.negative = false) :
    ofFields false x.exponentField x.fractionField = x :=
  eq_of_fields
    (by rw [negative_ofFields x.exponentField_lt x.fractionField_lt, positive])
    (exponentField_ofFields x.exponentField_lt x.fractionField_lt)
    (fractionField_ofFields x.exponentField_lt x.fractionField_lt)

theorem ofFraction_of_subnormal {x : F64} (positive : x.negative = false)
    (subnormal : x.exponentField = 0) : (⟨x.fractionField.toUInt64⟩ : F64) = x := by
  apply toNat_inj
  have fraction := x.fractionField_lt
  rw [bits_toNat x, positive, subnormal]
  simp only [Nat.toUInt64_eq, UInt64.toNat_ofNat', Bool.false_eq_true, if_false, Nat.zero_mul,
    Nat.zero_add, Nat.add_zero]
  apply Nat.mod_eq_of_lt
  simp only [Nat.reducePow] at *
  omega

theorem eq_zero_of_isZero {x : F64} (zero : x.isZero = true) :
    x = if x.negative then F64.zero.neg else F64.zero := by
  simp only [isZero, Bool.and_eq_true, beq_iff_eq] at zero
  have positiveZero : F64.zero.negative = false := by decide
  have zeroExponent : F64.zero.exponentField = 0 := by decide
  have zeroFraction : F64.zero.fractionField = 0 := by decide
  split
  · rename_i sign
    exact eq_of_fields (by simp [sign, positiveZero]) (by simp [zero.1, zeroExponent])
      (by simp [zero.2, zeroFraction])
  · rename_i sign
    exact eq_of_fields (by simp [sign, positiveZero]) (by rw [zero.1, zeroExponent])
      (by rw [zero.2, zeroFraction])

end MarketData.F64
