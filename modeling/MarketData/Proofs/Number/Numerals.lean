import Mathlib
import MarketData.Number.Integer

/-!
# The grammar of integer numerals

The numeral readers accept exactly the texts of the grammar their module describes: one or more
digits of the base, most significant first, spelling their positional value
(`readDigits?_eq_some_iff`); the same after an optional `+` or `-` (`readSigned?_eq_some_iff`);
and, for 64-bit words, decimal digits whose value lies below `2^64` (`readWord?_eq_some_iff`).
A digit is `0`–`9`, then a letter of either case from ten, so that in base 10 the digits are
exactly the ASCII digits and no separator such as `_` is a digit of any base up to 36.
-/

namespace MarketData.Numeral

/-- `ds` are digits of `base` that spell `n`: at least one, each a digit of the base, with the
positional value `n`. -/
def Spells (base : Nat) (ds : Bytes) (n : Nat) : Prop :=
  ds ≠ [] ∧ (∀ x ∈ ds, digitValue x < base) ∧ n = Nat.ofDigits base (ds.reverse.map digitValue)

/-- A numeral of a base: an optional `+` or `-`, then digits of the base, and nothing else. -/
inductive Signed (base : Nat) : Bytes → Int → Prop
  /-- Digits alone. -/
  | unsigned {ds : Bytes} {n : Nat} : Spells base ds n → Signed base ds n
  /-- Digits after a plus sign. -/
  | plus {ds : Bytes} {n : Nat} : Spells base ds n → Signed base (0x2B :: ds) n
  /-- Digits after a minus sign, negated. -/
  | minus {ds : Bytes} {n : Nat} : Spells base ds n → Signed base (0x2D :: ds) (-(n : Int))

theorem digitValue_lt_ten_iff (x : UInt8) : digitValue x < 10 ↔ Bytes.isAsciiDigit x = true := by
  unfold digitValue Bytes.isAsciiDigit
  by_cases digit : (0x30 ≤ x && x ≤ 0x39) = true
  · simp only [Bool.and_eq_true, decide_eq_true_eq, UInt8.le_iff_toNat_le, UInt8.reduceToNat] at digit
    simp only [Bool.and_eq_true, decide_eq_true_eq, UInt8.le_iff_toNat_le, UInt8.reduceToNat, digit,
      and_self, if_true, iff_true]
    omega
  · rw [if_neg digit]
    simp only [Bool.and_eq_true, decide_eq_true_eq, UInt8.le_iff_toNat_le, UInt8.reduceToNat] at digit ⊢
    split_ifs <;> omega

theorem digitValue_sign {x : UInt8} (sign : x = 0x2B ∨ x = 0x2D) : digitValue x = 36 := by
  rcases sign with rfl | rfl <;> rfl

theorem foldlM_digits (base : Nat) : ∀ (ds : Bytes) (init : Nat),
    ds.foldlM (fun acc x => if digitValue x < base then some (acc * base + digitValue x) else none) init =
      if ∀ x ∈ ds, digitValue x < base then
        some (init * base ^ ds.length + Nat.ofDigits base (ds.reverse.map digitValue))
      else none
  | [], init => by simp
  | x :: ds, init => by
    rw [List.foldlM_cons]
    by_cases digit : digitValue x < base
    · rw [if_pos digit, Option.bind_eq_bind, Option.bind_some, foldlM_digits base ds]
      -- the value so far is shifted past the remaining digits
      have shifted : (init * base + digitValue x) * base ^ ds.length + Nat.ofDigits base (ds.reverse.map digitValue) =
          init * base ^ (ds.length + 1) + Nat.ofDigits base ((x :: ds).reverse.map digitValue) := by
        rw [List.reverse_cons, List.map_append, Nat.ofDigits_append, List.map_singleton, Nat.ofDigits_singleton,
          List.length_map, List.length_reverse]
        ring
      simp only [List.forall_mem_cons, digit, true_and, List.length_cons, shifted]
    · rw [if_neg digit]
      simp [digit]

theorem readDigits?_eq_some_iff {base : Nat} {ds : Bytes} {n : Nat} :
    readDigits? base ds = some n ↔ Spells base ds n := by
  unfold readDigits? Spells
  cases ds with
  | nil => simp
  | cons x rest =>
    rw [if_neg (by simp), foldlM_digits]
    split
    · rename_i digits
      simp only [Nat.zero_mul, Nat.zero_add, Option.some.injEq]
      exact ⟨fun value => ⟨List.cons_ne_nil _ _, digits, value.symm⟩, fun spelled => spelled.2.2.symm⟩
    · rename_i stray
      exact ⟨nofun, fun spelled => (stray spelled.2.1).elim⟩

theorem readDigits?_eq_none_iff {base : Nat} {ds : Bytes} : readDigits? base ds = none ↔ ¬∃ n, Spells base ds n := by
  constructor
  · rintro none ⟨n, spelled⟩
    rw [readDigits?_eq_some_iff.2 spelled] at none
    cases none
  · intro unspelled
    cases read : readDigits? base ds with
    | none => rfl
    | some n => exact absurd ⟨n, readDigits?_eq_some_iff.1 read⟩ unspelled

theorem Spells.head_ne_sign {base : Nat} (small : base ≤ 36) {x : UInt8} {rest : Bytes} {n : Nat}
    (spelled : Spells base (x :: rest) n) (sign : x = 0x2B ∨ x = 0x2D) : False := by
  have digit := spelled.2.1 x (.head _)
  rw [digitValue_sign sign] at digit
  omega

theorem readSigned?_minus (base : Nat) (rest : Bytes) :
    readSigned? base (0x2D :: rest) = (readDigits? base rest).map fun (m : Nat) => -(m : Int) := by
  rw [readSigned?]
  cases readDigits? base rest <;> rfl

theorem readSigned?_plus (base : Nat) (rest : Bytes) :
    readSigned? base (0x2B :: rest) = (readDigits? base rest).map fun (m : Nat) => (m : Int) := by
  rw [readSigned?]
  cases readDigits? base rest <;> rfl

theorem readSigned?_unsigned (base : Nat) {b : Bytes} (unsigned : ∀ x rest, b = x :: rest → x ≠ 0x2B ∧ x ≠ 0x2D) :
    readSigned? base b = (readDigits? base b).map fun (m : Nat) => (m : Int) := by
  unfold readSigned?
  split
  · exact absurd rfl (unsigned _ _ rfl).2
  · exact absurd rfl (unsigned _ _ rfl).1
  · cases readDigits? base b <;> rfl

theorem readSigned?_eq_some_iff {base : Nat} (small : base ≤ 36) {b : Bytes} {n : Int} :
    readSigned? base b = some n ↔ Signed base b n := by
  -- the sign, if any, is the first byte, and no digit is a sign
  by_cases unsigned : ∀ x rest, b = x :: rest → x ≠ 0x2B ∧ x ≠ 0x2D
  · rw [readSigned?_unsigned base unsigned, Option.map_eq_some_iff]
    constructor
    · rintro ⟨m, read, rfl⟩
      exact .unsigned (readDigits?_eq_some_iff.1 read)
    · intro signed
      cases signed with
      | unsigned spelled => exact ⟨_, readDigits?_eq_some_iff.2 spelled, rfl⟩
      | plus => exact absurd rfl (unsigned _ _ rfl).1
      | minus => exact absurd rfl (unsigned _ _ rfl).2
  · obtain ⟨x, rest, rfl, sign⟩ : ∃ x rest, b = x :: rest ∧ (x = 0x2B ∨ x = 0x2D) := by
      simp only [not_forall, ne_eq, not_and_or, not_not] at unsigned
      obtain ⟨x, rest, opens, sign⟩ := unsigned
      exact ⟨x, rest, opens, sign⟩
    rcases sign with rfl | rfl
    · rw [readSigned?_plus, Option.map_eq_some_iff]
      constructor
      · rintro ⟨m, read, rfl⟩
        exact .plus (readDigits?_eq_some_iff.1 read)
      · intro signed
        cases signed with
        | unsigned spelled => exact (spelled.head_ne_sign small (.inl rfl)).elim
        | plus spelled => exact ⟨_, readDigits?_eq_some_iff.2 spelled, rfl⟩
    · rw [readSigned?_minus, Option.map_eq_some_iff]
      constructor
      · rintro ⟨m, read, rfl⟩
        exact .minus (readDigits?_eq_some_iff.1 read)
      · intro signed
        cases signed with
        | unsigned spelled => exact (spelled.head_ne_sign small (.inr rfl)).elim
        | minus spelled => exact ⟨_, readDigits?_eq_some_iff.2 spelled, rfl⟩

theorem readWord?_eq_some_iff {b : Bytes} {w : UInt64} :
    readWord? b = some w ↔ ∃ n, Spells 10 b n ∧ n < 2 ^ 64 ∧ w = n.toUInt64 := by
  unfold readWord?
  split
  · rename_i n read
    have spelled := readDigits?_eq_some_iff.1 read
    rw [show Nat.pow 2 64 = 2 ^ 64 from rfl]
    constructor
    · intro wrote
      split at wrote
      · exact ⟨n, spelled, ‹_›, (Option.some.inj wrote).symm⟩
      · cases wrote
    · rintro ⟨m, spelled', small, rfl⟩
      have same : n = m := spelled.2.2.trans spelled'.2.2.symm
      subst same
      rw [if_pos small]
  · rename_i unread
    constructor
    · intro wrote
      cases wrote
    · rintro ⟨m, spelled, -, -⟩
      rw [readDigits?_eq_some_iff.2 spelled] at unread
      cases unread

end MarketData.Numeral
