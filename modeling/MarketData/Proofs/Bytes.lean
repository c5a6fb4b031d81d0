import Mathlib
import MarketData.Text.Bytes

/-!
# Little-endian words

A word of `width` bytes is written least significant byte first; reading the bytes back gives
the number modulo `256 ^ width`, and writing a number read from `width` bytes gives those bytes
again. Both codecs of fixed-width words rest on these two facts.
-/

namespace MarketData

namespace Bytes

theorem littleEndian_succ (width n : Nat) :
    littleEndian (width + 1) n = (n % 256).toUInt8 :: littleEndian width (n / 256) := by
  simp only [littleEndian, List.range_succ_eq_map, List.map_cons, List.map_map]
  congr 1
  · simp
  · apply List.map_congr_left
    intro i _
    simp [Nat.pow_succ', Nat.div_div_eq_div_mul]

@[simp] theorem readLittleEndian_littleEndian (width n : Nat) :
    readLittleEndian (littleEndian width n) = n % 256 ^ width := by
  induction width generalizing n with
  | zero => simp [littleEndian, readLittleEndian, Nat.mod_one]
  | succ width inductionHypothesis =>
    rw [littleEndian_succ, readLittleEndian, List.foldr_cons, ← readLittleEndian,
      inductionHypothesis, Nat.pow_succ', Nat.mod_mul]
    simp

theorem readLittleEndian_lt (b : Bytes) : readLittleEndian b < 256 ^ b.length := by
  induction b with
  | nil => simp [readLittleEndian]
  | cons x rest inductionHypothesis =>
    rw [readLittleEndian, List.foldr_cons, ← readLittleEndian, List.length_cons, Nat.pow_succ']
    have := x.toNat_lt
    omega

@[simp] theorem littleEndian_readLittleEndian (b : Bytes) :
    littleEndian b.length (readLittleEndian b) = b := by
  induction b with
  | nil => rfl
  | cons x rest inductionHypothesis =>
    rw [List.length_cons, littleEndian_succ, readLittleEndian, List.foldr_cons, ← readLittleEndian]
    have := x.toNat_lt
    have low : (x.toNat + 256 * readLittleEndian rest) % 256 = x.toNat := by omega
    have high : (x.toNat + 256 * readLittleEndian rest) / 256 = readLittleEndian rest := by omega
    rw [low, high, inductionHypothesis]
    simp

theorem readLittleEndian_littleEndian_of_lt {width n : Nat} (small : n < 256 ^ width) :
    readLittleEndian (littleEndian width n) = n := by
  rw [readLittleEndian_littleEndian, Nat.mod_eq_of_lt small]

theorem toUInt64_readLittleEndian (v : UInt64) :
    (readLittleEndian (littleEndian 8 v.toNat)).toUInt64 = v := by
  have small : v.toNat < 256 ^ 8 := by simpa using v.toNat_lt
  rw [readLittleEndian_littleEndian_of_lt small]
  simp

theorem toUInt32_readLittleEndian (v : UInt32) :
    (readLittleEndian (littleEndian 4 v.toNat)).toUInt32 = v := by
  have small : v.toNat < 256 ^ 4 := by simpa using v.toNat_lt
  rw [readLittleEndian_littleEndian_of_lt small]
  simp

theorem littleEndian_toUInt64 {b : Bytes} (eight : b.length = 8) :
    littleEndian 8 (readLittleEndian b).toUInt64.toNat = b := by
  have bound := readLittleEndian_lt b
  rw [eight] at bound
  have exact : (readLittleEndian b).toUInt64.toNat = readLittleEndian b := by
    simp only [Nat.toUInt64_eq, UInt64.toNat_ofNat']
    exact Nat.mod_eq_of_lt bound
  rw [exact, ← eight, littleEndian_readLittleEndian]

end Bytes

end MarketData
