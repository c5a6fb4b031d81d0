import MarketData.Proofs.Json.Strings
import MarketData.Json.Syntax

/-!
# Numerals read back

The digits of a natural number are ASCII decimal digits, the first of them zero only for zero
(`toDigits_cons`). The readers take such digits whole when no digit follows
(`spanDigits_digits`) and give them the value they spell (`foldl_digits`). So an integer written
in decimal reads back as itself whenever what follows it cannot continue a number
(`integerToken?_toString`); in a written document a value is followed by a comma, a closing
bracket or brace, a blank, or nothing (`Delimited`).
-/

namespace MarketData.Json

open Utf8

/-! ## Decimal digits -/

/-- Characters that are all decimal digits. -/
def DecimalDigits (ds : List Char) : Prop := ∀ c ∈ ds, c.isDigit = true

theorem digit_bounds {c : Char} (digit : c.isDigit = true) : 48 ≤ c.toNat ∧ c.toNat ≤ 57 :=
  Char.isDigit_iff_toNat.1 digit

theorem encode_digits {ds : List Char} (digits : DecimalDigits ds) :
    encode ds = ds.map fun c => c.toNat.toUInt8 :=
  encode_of_ascii fun c member => by
    have := digit_bounds (digits c member)
    omega

theorem toNat_toUInt8_of_isDigit {c : Char} (digit : c.isDigit = true) :
    c.toNat.toUInt8.toNat = c.toNat :=
  toNat_ofNat_of_lt (by have := digit_bounds digit; omega)

theorem isAsciiDigit_toUInt8 {c : Char} (digit : c.isDigit = true) :
    Bytes.isAsciiDigit c.toNat.toUInt8 = true := by
  simp only [Bytes.isAsciiDigit, Bool.and_eq_true, decide_eq_true_eq, UInt8.le_iff_toNat_le,
    toNat_toUInt8_of_isDigit digit, UInt8.reduceToNat]
  exact digit_bounds digit

/-- Digits followed by a byte that is no digit are taken whole. -/
theorem spanDigits_digits {ds : List Char} (digits : DecimalDigits ds) {rest : Bytes}
    (stop : ∀ b ∈ rest.head?, Bytes.isAsciiDigit b = false) :
    spanDigits (encode ds ++ rest) = (encode ds, rest) := by
  have all : ∀ b ∈ encode ds, Bytes.isAsciiDigit b = true := by
    rw [encode_digits digits]
    intro b member
    obtain ⟨c, within, rfl⟩ := List.mem_map.1 member
    exact isAsciiDigit_toUInt8 (digits c within)
  have none : rest.takeWhile Bytes.isAsciiDigit = [] := by
    cases rest with
    | nil => rfl
    | cons b more => simp [stop b rfl]
  have whole : rest.dropWhile Bytes.isAsciiDigit = rest := by
    cases rest with
    | nil => rfl
    | cons b more => simp [stop b rfl]
  rw [spanDigits, List.takeWhile_append_of_pos all, List.dropWhile_append_of_pos all, none,
    whole, List.append_nil]

/-- The value the readers give digits is the one they spell. -/
theorem foldl_digits {ds : List Char} (digits : DecimalDigits ds) (init : ℕ) :
    (encode ds).foldl (fun acc d => acc * 10 + (d.toNat - 0x30)) init = Nat.ofDigitChars 10 ds init := by
  rw [encode_digits digits]
  induction ds generalizing init with
  | nil => rfl
  | cons c ds inductionHypothesis =>
    rw [List.map_cons, List.foldl_cons, Nat.ofDigitChars_cons, toNat_toUInt8_of_isDigit (digits c (.head _)),
      inductionHypothesis fun d member => digits d (.tail _ member), Nat.mul_comm]
    rfl

theorem toDigits_digits (n : ℕ) : DecimalDigits (Nat.toDigits 10 n) :=
  fun _ member => Nat.isDigit_of_mem_toDigits (by decide) (by decide) member

/-- The digits of a number start with zero only when the number is zero. -/
theorem toDigits_cons (n : ℕ) : ∃ c cs, Nat.toDigits 10 n = c :: cs ∧ (c = '0' → n = 0) := by
  induction n using Nat.strong_induction_on with
  | _ n inductionHypothesis =>
    rw [Nat.toDigits_eq_if (by decide)]
    split
    · rename_i small
      exact ⟨_, [], rfl, fun zero => Nat.digitChar_eq_zero.1 zero⟩
    · rename_i large
      obtain ⟨c, cs, spelled, lead⟩ := inductionHypothesis (n / 10) (by omega)
      refine ⟨c, cs ++ [Nat.digitChar (n % 10)], by rw [spelled, List.cons_append], fun zero => ?_⟩
      have := lead zero
      omega

/-! ## Integers -/

/-- What may follow a value in a written document: a comma, a closing bracket or brace, a
blank, or nothing. -/
def Delimited (rest : Bytes) : Prop :=
  ∀ b ∈ rest.head?, b = 0x2C ∨ b = 0x7D ∨ b = 0x5D ∨ isSpace b = true

theorem Delimited.head {rest : Bytes} (after : Delimited rest) :
    ∀ b ∈ rest.head?, Bytes.isAsciiDigit b = false ∧ b ≠ 0x2E ∧ b ≠ 0x65 ∧ b ≠ 0x45 := by
  intro b first
  rcases after b first with comma | brace | bracket | blank
  · subst comma
    decide
  · subst brace
    decide
  · subst bracket
    decide
  · simp only [isSpace, Bool.or_eq_true, beq_iff_eq] at blank
    rcases blank with ((space | tab) | newline) | carriage <;> subst_vars <;> decide

theorem integerToken?_digits (negative : Bool) {ds : List Char} (digits : DecimalDigits ds)
    {c : Char} {cs : List Char} (spelled : ds = c :: cs) (lead : c = '0' → cs = [])
    {rest : Bytes} (after : Delimited rest) :
    integerToken? ((if negative then [0x2D] else []) ++ encode ds ++ rest) =
      some (integerToken?.value negative (encode ds), rest) := by
  have span : spanDigits (encode ds ++ rest) = (encode ds, rest) :=
    spanDigits_digits digits fun b first => (after.head b first).1
  have nonempty : (encode ds).isEmpty = false := by
    rw [encode_digits digits, spelled]
    rfl
  have noSign : ∀ more, encode ds ++ rest ≠ 0x2D :: more := by
    intro more same
    rw [encode_digits digits, spelled, List.map_cons, List.cons_append, List.cons.injEq] at same
    have := congrArg UInt8.toNat same.1
    rw [toNat_toUInt8_of_isDigit (digits c (spelled ▸ .head _))] at this
    have := digit_bounds (digits c (spelled ▸ .head _))
    simp only [UInt8.reduceToNat] at *
    omega
  have noLeadingZero : ∀ head tail, encode ds ≠ 0x30 :: head :: tail := by
    intro head tail zeroFirst
    rw [encode_digits digits, spelled, List.map_cons, List.cons.injEq] at zeroFirst
    have zero : c = '0' := by
      have := congrArg UInt8.toNat zeroFirst.1
      rw [toNat_toUInt8_of_isDigit (digits c (spelled ▸ .head _))] at this
      exact Char.ext (UInt32.toNat_inj.1 this)
    rw [lead zero] at zeroFirst
    cases zeroFirst.2
  unfold integerToken?
  -- the discharger refutes the sign pattern by noSign and the leading zero by noLeadingZero
  cases negative <;>
    simp only [Bool.false_eq_true, if_false, if_true, List.nil_append, List.cons_append, span,
      nonempty, Bool.false_or]
  all_goals
    cases rest with
    | nil => rfl
    | cons b more =>
      obtain ⟨_, point, small, large⟩ := after.head b rfl
      simp [point, small, large]

theorem ofString_toString_int (i : ℤ) :
    Bytes.ofString (toString i) =
      (if i < 0 then [0x2D] else []) ++ encode (Nat.toDigits 10 i.natAbs) := by
  rw [Int.toString_eq_repr, Int.repr_eq_if]
  split
  · rename_i nonneg
    have magnitude : i.toNat = i.natAbs := by omega
    rw [if_neg (by omega), List.nil_append, Nat.repr_eq_ofList_toDigits, Bytes.ofString_ofList,
      magnitude]
  · rename_i negative
    have magnitude : (-i).toNat = i.natAbs := by omega
    rw [if_pos (by omega), Bytes.ofString_append, Nat.repr_eq_ofList_toDigits, Bytes.ofString_ofList,
      Bytes.ofString_ofList, magnitude]
    rfl

theorem value_toDigits (i : ℤ) :
    integerToken?.value (decide (i < 0)) (encode (Nat.toDigits 10 i.natAbs)) = i := by
  unfold integerToken?.value
  rw [foldl_digits (toDigits_digits _), Nat.ofDigitChars_ten_toDigits]
  by_cases negative : i < 0
  · rw [decide_eq_true negative, if_pos rfl]
    omega
  · rw [decide_eq_false negative, if_neg (by simp)]
    omega

/-- An integer written in decimal reads back as itself. -/
theorem integerToken?_toString (i : ℤ) {rest : Bytes} (after : Delimited rest) :
    integerToken? (Bytes.ofString (toString i) ++ rest) = some (i, rest) := by
  obtain ⟨c, cs, spelled, lead⟩ := toDigits_cons i.natAbs
  have signed := integerToken?_digits (decide (i < 0)) (toDigits_digits i.natAbs) spelled
    (fun zero => by
      have zeroValue := lead zero
      rw [zeroValue] at spelled
      rw [Nat.toDigits_zero] at spelled
      exact (List.cons.inj spelled).2.symm) after
  rw [ofString_toString_int, value_toDigits] at *
  rw [← signed]
  congr 2
  by_cases negative : i < 0 <;> simp [negative]

end MarketData.Json
