import MarketData.Proofs.Json.Numbers
import MarketData.Proofs.Number.Shortest
import MarketData.Json.Entity

/-!
# Float numbers read back

A JSON number is a sign, integer digits with no leading zero, an optional fraction and an
optional signed exponent (`NumberText`, `NumberText.WellFormed`). The number token at the head of
such a text, followed by a delimiter, is the whole text (`NumberText.numberToken?_chars`), and its
digits and exponent are the ones it was written with (`NumberText.decimalOfToken_chars`).

Every finite float is written as such a text (`renderDigits_text` for the digits, `render_text`
with the sign), and the decimal the text stands for lies in the rounding interval of the float,
so the reader of floats gives the float back, zero and the sign of zero included.
-/

namespace MarketData.Json

open Utf8

theorem takeWhile_append_stop {α : Type} {p : α → Bool} {l rest : List α} (all : ∀ a ∈ l, p a = true)
    (stop : ∀ a ∈ rest.head?, p a = false) : (l ++ rest).takeWhile p = l := by
  rw [List.takeWhile_append_of_pos all]
  cases rest with
  | nil => simp
  | cons a more => simp [stop a rfl]

theorem dropWhile_append_stop {α : Type} {p : α → Bool} {l rest : List α} (all : ∀ a ∈ l, p a = true)
    (stop : ∀ a ∈ rest.head?, p a = false) : (l ++ rest).dropWhile p = rest := by
  rw [List.dropWhile_append_of_pos all]
  cases rest with
  | nil => rfl
  | cons a more => simp [stop a rfl]

/-! ## The parts of a number token -/

theorem signPart_of_digits {ds : List Char} (digits : DecimalDigits ds) (nonempty : ds ≠ [])
    (rest : Bytes) : signPart (Utf8.encode ds ++ rest) = ([], Utf8.encode ds ++ rest) := by
  obtain ⟨c, cs, rfl⟩ := List.exists_cons_of_ne_nil nonempty
  have within := digit_bounds (digits c (.head _))
  have noSign : ∀ more, Utf8.encode (c :: cs) ++ rest ≠ 0x2D :: more := by
    intro more same
    rw [encode_digits digits, List.map_cons, List.cons_append, List.cons.injEq] at same
    have := congrArg UInt8.toNat same.1
    rw [toNat_toUInt8_of_isDigit (digits c (.head _))] at this
    simp only [UInt8.reduceToNat] at this
    omega
  unfold signPart
  split
  · rename_i more same
    exact absurd same (noSign more)
  · rfl


theorem wholePart?_zero (rest : Bytes) : wholePart? (0x30 :: rest) = some ([0x30], rest) := by
  rw [wholePart?]

theorem wholePart?_digits {c : Char} {cs : List Char} (digits : DecimalDigits (c :: cs))
    (notZero : c ≠ '0') {rest : Bytes} (stop : ∀ b ∈ rest.head?, Bytes.isAsciiDigit b = false) :
    wholePart? (Utf8.encode (c :: cs) ++ rest) = some (Utf8.encode (c :: cs), rest) := by
  have lead : Utf8.encode (c :: cs) ++ rest = c.toNat.toUInt8 :: (Utf8.encode cs ++ rest) := by
    rw [encode_digits digits, List.map_cons, List.cons_append, ← encode_digits
      fun d member => digits d (.tail _ member)]
  have notZeroByte : c.toNat.toUInt8 ≠ 0x30 := by
    intro same
    have := congrArg UInt8.toNat same
    rw [toNat_toUInt8_of_isDigit (digits c (.head _))] at this
    exact notZero (Char.ext (UInt32.toNat_inj.1 this))
  rw [lead, wholePart?, if_pos (isAsciiDigit_toUInt8 (digits c (.head _))), ← lead,
    spanDigits_digits digits stop]
  · exact notZeroByte

theorem fractionPart?_none {rest : Bytes} (noPoint : ∀ b ∈ rest.head?, b ≠ 0x2E) :
    fractionPart? rest = some ([], rest) := by
  unfold fractionPart?
  split
  · rename_i more
    exact absurd rfl (noPoint 0x2E rfl)
  · rfl

theorem fractionPart?_digits {ds : List Char} (digits : DecimalDigits ds) (nonempty : ds ≠ [])
    {rest : Bytes} (stop : ∀ b ∈ rest.head?, Bytes.isAsciiDigit b = false) :
    fractionPart? (0x2E :: (Utf8.encode ds ++ rest)) = some (0x2E :: Utf8.encode ds, rest) := by
  have filled : (Utf8.encode ds).isEmpty = false := by
    rw [encode_digits digits, List.isEmpty_eq_false_iff, ne_eq, List.map_eq_nil_iff]
    exact nonempty
  rw [fractionPart?, spanDigits_digits digits stop]
  simp only [filled, Bool.false_eq_true, if_false]

theorem exponentPart?_none {rest : Bytes} (noMark : ∀ b ∈ rest.head?, b ≠ 0x65 ∧ b ≠ 0x45) :
    exponentPart? rest = some ([], rest) := by
  unfold exponentPart?
  split
  · rename_i e more
    obtain ⟨small, large⟩ := noMark e rfl
    simp [small, large]
  · rfl

theorem exponentPart?_digits {s : UInt8} (sign : s = 0x2B ∨ s = 0x2D) {ds : List Char}
    (digits : DecimalDigits ds) (nonempty : ds ≠ []) {rest : Bytes}
    (stop : ∀ b ∈ rest.head?, Bytes.isAsciiDigit b = false) :
    exponentPart? (0x65 :: s :: (Utf8.encode ds ++ rest)) = some (0x65 :: s :: Utf8.encode ds, rest) := by
  have filled : (Utf8.encode ds).isEmpty = false := by
    rw [encode_digits digits, List.isEmpty_eq_false_iff, ne_eq, List.map_eq_nil_iff]
    exact nonempty
  have signed : (s == 0x2B || s == 0x2D) = true := by
    rcases sign with rfl | rfl <;> rfl
  simp only [exponentPart?, beq_self_eq_true, Bool.true_or, if_true, signed,
    spanDigits_digits digits stop, filled, Bool.false_eq_true, if_false, List.cons_append,
    List.nil_append]


/-- The parts of a number as written: a sign, the integer digits, the digits after a point (no
point when there are none), and an exponent with its sign. -/
structure NumberText where
  negative : Bool
  whole : List Char
  fraction : List Char
  exponent : Option (Bool × List Char)

namespace NumberText

/-- A point and the fraction digits, when there are any. -/
def fractionChars (t : NumberText) : List Char := if t.fraction = [] then [] else '.' :: t.fraction

/-- The exponent mark, its sign and digits, when there is an exponent. -/
def exponentChars (t : NumberText) : List Char :=
  match t.exponent with
  | none => []
  | some (below, ds) => 'e' :: (if below then '-' else '+') :: ds

/-- The text of the number. -/
def chars (t : NumberText) : List Char :=
  (if t.negative then ['-'] else []) ++ t.whole ++ t.fractionChars ++ t.exponentChars

/-- The exponent the text writes, zero when it has none. -/
def exponentValue (t : NumberText) : ℤ :=
  match t.exponent with
  | none => 0
  | some (below, ds) => if below then -(Nat.ofDigitChars 10 ds 0 : ℤ) else Nat.ofDigitChars 10 ds 0

/-- The grammar of a JSON number: integer digits with no leading zero, and digits after the
point and in the exponent when these are written. -/
structure WellFormed (t : NumberText) : Prop where
  whole : DecimalDigits t.whole
  lead : ∃ c cs, t.whole = c :: cs ∧ (c = '0' → cs = [])
  fraction : DecimalDigits t.fraction
  exponent : ∀ p ∈ t.exponent, DecimalDigits p.2 ∧ p.2 ≠ []

variable {t : NumberText}

theorem encode_fractionChars :
    Utf8.encode t.fractionChars = if t.fraction = [] then [] else 0x2E :: Utf8.encode t.fraction := by
  unfold fractionChars
  split <;> rfl

theorem encode_exponentChars :
    Utf8.encode t.exponentChars = match t.exponent with
      | none => []
      | some (below, ds) => 0x65 :: (if below then 0x2D else 0x2B) :: Utf8.encode ds := by
  unfold exponentChars
  split
  · rfl
  · rename_i below ds _
    cases below <;> rfl

theorem afterWhole_head {rest : Bytes} (after : Delimited rest) :
    ∀ b ∈ (Utf8.encode t.fractionChars ++ Utf8.encode t.exponentChars ++ rest).head?,
      Bytes.isAsciiDigit b = false := by
  rw [encode_fractionChars, encode_exponentChars]
  intro b first
  split at first
  · split at first
    · exact (after.head b (by simpa using first)).1
    · simp only [List.nil_append, List.cons_append, List.head?_cons, Option.mem_def,
        Option.some.injEq] at first
      subst first
      rfl
  · simp only [List.cons_append, List.head?_cons, Option.mem_def, Option.some.injEq] at first
    subst first
    rfl

theorem afterFraction_head {rest : Bytes} (after : Delimited rest) :
    ∀ b ∈ (Utf8.encode t.exponentChars ++ rest).head?, Bytes.isAsciiDigit b = false ∧ b ≠ 0x2E := by
  rw [encode_exponentChars]
  intro b first
  split at first
  · obtain ⟨digit, point, _⟩ := after.head b (by simpa using first)
    exact ⟨digit, point⟩
  · simp only [List.cons_append, List.head?_cons, Option.mem_def, Option.some.injEq] at first
    subst first
    decide

theorem encode_chars :
    Utf8.encode t.chars = (if t.negative then [0x2D] else []) ++ Utf8.encode t.whole ++
      Utf8.encode t.fractionChars ++ Utf8.encode t.exponentChars := by
  simp only [chars, encode_append]
  congr 3
  split <;> rfl

theorem numberToken?_chars (wf : t.WellFormed) {rest : Bytes} (after : Delimited rest) :
    numberToken? (Utf8.encode t.chars ++ rest) = some (Utf8.encode t.chars, rest) := by
  obtain ⟨c, cs, spelled, lead⟩ := wf.lead
  have sign : signPart ((if t.negative then [0x2D] else []) ++
      (Utf8.encode t.whole ++ Utf8.encode t.fractionChars ++ Utf8.encode t.exponentChars ++ rest)) =
      (if t.negative then [0x2D] else [],
        Utf8.encode t.whole ++ Utf8.encode t.fractionChars ++ Utf8.encode t.exponentChars ++ rest) := by
    cases t.negative
    · simp only [Bool.false_eq_true, if_false, List.nil_append, List.append_assoc]
      exact signPart_of_digits wf.whole (by rw [spelled]; exact List.cons_ne_nil _ _) _
    · rfl
  have whole : wholePart? (Utf8.encode t.whole ++
      (Utf8.encode t.fractionChars ++ Utf8.encode t.exponentChars ++ rest)) =
      some (Utf8.encode t.whole, Utf8.encode t.fractionChars ++ Utf8.encode t.exponentChars ++ rest) := by
    rw [spelled]
    by_cases zero : c = '0'
    · rw [zero, lead zero]
      exact wholePart?_zero _
    · exact wholePart?_digits (spelled ▸ wf.whole) zero (afterWhole_head after)
  have fraction : fractionPart? (Utf8.encode t.fractionChars ++ (Utf8.encode t.exponentChars ++ rest)) =
      some (Utf8.encode t.fractionChars, Utf8.encode t.exponentChars ++ rest) := by
    rw [encode_fractionChars]
    split
    · exact fractionPart?_none fun b first => (afterFraction_head after b first).2
    · rename_i written
      rw [List.cons_append]
      exact fractionPart?_digits wf.fraction written fun b first => (afterFraction_head after b first).1
  have exponent : exponentPart? (Utf8.encode t.exponentChars ++ rest) =
      some (Utf8.encode t.exponentChars, rest) := by
    rw [encode_exponentChars]
    split
    · exact exponentPart?_none fun b first => (after.head b first).2.2
    · rename_i below ds written
      obtain ⟨digits, nonempty⟩ := wf.exponent _ written
      rw [List.cons_append, List.cons_append]
      exact exponentPart?_digits (by cases below <;> simp) digits nonempty
        fun b first => (after.head b first).1
  rw [encode_chars]
  simp only [numberToken?, List.append_assoc] at sign whole fraction ⊢
  rw [sign]
  simp only [whole, fraction, exponent, Option.bind_eq_bind, Option.bind_some, Option.pure_def]

theorem toNat_of_mem_digits {ds : List Char} (digits : DecimalDigits ds) {b : UInt8}
    (member : b ∈ Utf8.encode ds) : 48 ≤ b.toNat ∧ b.toNat ≤ 57 := by
  rw [encode_digits digits] at member
  obtain ⟨c, within, rfl⟩ := List.mem_map.1 member
  rw [toNat_toUInt8_of_isDigit (digits c within)]
  exact digit_bounds (digits c within)

theorem length_encode_digits {ds : List Char} (digits : DecimalDigits ds) :
    (Utf8.encode ds).length = ds.length := by
  rw [encode_digits digits, List.length_map]

theorem decimalOfToken_chars (wf : t.WellFormed) :
    decimalOfToken (Utf8.encode t.chars) =
      (t.negative, Nat.ofDigitChars 10 (t.whole ++ t.fraction) 0, t.exponentValue - t.fraction.length) := by
  obtain ⟨c, cs, spelled, lead⟩ := wf.lead
  have wholeBytes := fun b (member : b ∈ Utf8.encode t.whole) => toNat_of_mem_digits wf.whole member
  have fractionBytes := fun b (member : b ∈ Utf8.encode t.fraction) =>
    toNat_of_mem_digits wf.fraction member
  have notMark : ∀ b ∈ Utf8.encode t.whole ++ Utf8.encode t.fractionChars,
      (b != 0x65 && b != 0x45) = true := by
    intro b member
    rw [encode_fractionChars] at member
    simp only [bne_iff_ne, ne_eq, Bool.and_eq_true, UInt8.ext_iff, UInt8.reduceToNat]
    rcases List.mem_append.1 member with inWhole | inFraction
    · have := wholeBytes b inWhole
      omega
    · split at inFraction
      · cases inFraction
      · rcases List.mem_cons.1 inFraction with point | inDigits
        · subst point
          decide
        · have := fractionBytes b inDigits
          omega
  have markStop : ∀ b ∈ (Utf8.encode t.exponentChars).head?, (b != 0x65 && b != 0x45) = false := by
    rw [encode_exponentChars]
    intro b first
    split at first
    · cases first
    · cases first
      rfl
  have notPoint : ∀ b ∈ Utf8.encode t.whole, (b != 0x2E) = true := by
    intro b member
    have := wholeBytes b member
    simp only [bne_iff_ne, ne_eq, UInt8.ext_iff, UInt8.reduceToNat]
    omega
  have pointStop : ∀ b ∈ (Utf8.encode t.fractionChars).head?, (b != 0x2E) = false := by
    rw [encode_fractionChars]
    intro b first
    split at first
    · cases first
    · cases first
      rfl
  have fractionDigits : (Utf8.encode t.fractionChars).drop 1 = Utf8.encode t.fraction := by
    rw [encode_fractionChars]
    split
    · rename_i empty
      rw [empty]
      rfl
    · rfl
  have noSign : ∀ more, Utf8.encode t.whole ++ Utf8.encode t.fractionChars ++
      Utf8.encode t.exponentChars ≠ 0x2D :: more := by
    intro more same
    rw [spelled, encode_cons, List.append_assoc, List.append_assoc] at same
    obtain ⟨x, tail, encoded, _⟩ := encodeChar_cons c
    rw [encoded, List.cons_append, List.cons.injEq] at same
    have := wholeBytes x (by rw [spelled, encode_cons, encoded]; exact .head _)
    have := congrArg UInt8.toNat same.1
    simp only [UInt8.reduceToNat] at this
    omega
  have digits : DecimalDigits (t.whole ++ t.fraction) := fun c member =>
    (List.mem_append.1 member).elim (wf.whole c) (wf.fraction c)
  unfold decimalOfToken
  rw [encode_chars]
  -- the discharger refutes the sign pattern by noSign when the number is not negative
  cases t.negative <;> simp only [Bool.false_eq_true, if_false, if_true, List.nil_append, List.cons_append]
  all_goals
    rw [takeWhile_append_stop notMark markStop, dropWhile_append_stop notMark markStop,
      takeWhile_append_stop notPoint pointStop, dropWhile_append_stop notPoint pointStop, fractionDigits,
      ← encode_append, foldl_digits digits, length_encode_digits wf.fraction, Prod.mk.injEq, Prod.mk.injEq]
    refine ⟨rfl, rfl, ?_⟩
    rw [sub_left_inj]
    rcases written : t.exponent with _ | ⟨below, ds⟩
    · simp only [exponentValue, encode_exponentChars, written, List.drop_nil, List.foldl_nil]
      rfl
    · obtain ⟨expDigits, _⟩ := wf.exponent _ written
      cases below <;>
        simp only [exponentValue, encode_exponentChars, written, if_true, Bool.false_eq_true, if_false,
          List.drop_succ_cons, List.drop_zero, foldl_digits expDigits]

end NumberText


theorem digits_replicate_zero (n : ℕ) : DecimalDigits (List.replicate n '0') := by
  intro c member
  rw [List.eq_of_mem_replicate member]
  rfl

theorem DecimalDigits.append {ds es : List Char} (left : DecimalDigits ds) (right : DecimalDigits es) :
    DecimalDigits (ds ++ es) := fun c member => (List.mem_append.1 member).elim (left c) (right c)

theorem ofDigitChars_padLeft (width : ℕ) (ds : List Char) :
    Nat.ofDigitChars 10 (Notation.padLeft width ds) 0 = Nat.ofDigitChars 10 ds 0 := by
  rw [Notation.padLeft, Nat.ofDigitChars_append, Nat.ofDigitChars_replicate_zero, Nat.mul_zero]

theorem exponent_text (form : Notation) (e : ℤ) :
    ∃ (below : Bool) (pad : List Char), DecimalDigits pad ∧ pad ≠ [] ∧
      (if 0 ≤ e then '+' :: Notation.padLeft form.widthAbove (Nat.toDigits 10 e.toNat)
        else '-' :: Notation.padLeft form.widthBelow (Nat.toDigits 10 (-e).toNat)) =
        (if below then '-' else '+') :: pad ∧
      (if below then -(Nat.ofDigitChars 10 pad 0 : ℤ) else Nat.ofDigitChars 10 pad 0) = e := by
  have padded : ∀ width n, DecimalDigits (Notation.padLeft width (Nat.toDigits 10 n)) ∧
      Notation.padLeft width (Nat.toDigits 10 n) ≠ [] := fun width n =>
    ⟨(digits_replicate_zero _).append (toDigits_digits n), by simp [Notation.padLeft]⟩
  by_cases nonneg : 0 ≤ e
  · refine ⟨false, _, (padded _ _).1, (padded _ _).2, by rw [if_pos nonneg]; rfl, ?_⟩
    rw [if_neg Bool.false_ne_true, ofDigitChars_padLeft, Nat.ofDigitChars_ten_toDigits]
    omega
  · refine ⟨true, _, (padded _ _).1, (padded _ _).2, by rw [if_neg nonneg]; rfl, ?_⟩
    rw [if_pos rfl, ofDigitChars_padLeft, Nat.ofDigitChars_ten_toDigits]
    omega

/-- The digits of a non-zero decimal `d · 10^k`, in any notation, are a well-formed number with
the same value. -/
theorem renderDigits_text (form : Notation) {d : ℕ} (nonzero : d ≠ 0) (k : ℤ) :
    ∃ t : NumberText, t.WellFormed ∧ t.negative = false ∧ t.chars = form.renderDigits d k ∧
      (Nat.ofDigitChars 10 (t.whole ++ t.fraction) 0 : ℚ) * 10 ^ (t.exponentValue - t.fraction.length) =
        d * 10 ^ k := by
  obtain ⟨c, cs, spelled, lead⟩ := toDigits_cons d
  have notZero : c ≠ '0' := fun zero => nonzero (lead zero)
  have digits := toDigits_digits d
  have value : Nat.ofDigitChars 10 (Nat.toDigits 10 d) 0 = d := Nat.ofDigitChars_ten_toDigits
  unfold Notation.renderDigits Notation.positional Notation.digitsOf
  dsimp only
  split
  · split
    · -- a whole number: the digits and `k` zeros
      rename_i nonneg
      refine ⟨⟨false, Nat.toDigits 10 d ++ List.replicate k.toNat '0', [], none⟩,
        ⟨digits.append (digits_replicate_zero _), ⟨c, cs ++ List.replicate k.toNat '0',
          by rw [spelled, List.cons_append], fun zero => absurd zero notZero⟩,
          (fun _ member => nomatch member), fun _ member => nomatch member⟩, rfl, ?_, ?_⟩
      · simp [NumberText.chars, NumberText.fractionChars, NumberText.exponentChars]
      · simp only [List.append_nil, Nat.ofDigitChars_append, Nat.ofDigitChars_replicate_zero, value,
          NumberText.exponentValue, List.length_nil, Nat.cast_zero, sub_zero, zpow_zero, mul_one,
          zpow_eq_pow_toNat 10 nonneg]
        push_cast
        ring
    · split
      · -- a point inside the digits: `m` of them before it
        rename_i negative inside
        have length : (Nat.toDigits 10 d).length = cs.length + 1 := by rw [spelled, List.length_cons]
        generalize cut : (Nat.toDigits 10 d).length - (-k).toNat = m
        obtain ⟨m, rfl⟩ : ∃ m', m = m' + 1 := ⟨m - 1, by omega⟩
        have remaining : (Nat.toDigits 10 d).drop (m + 1) ≠ [] := by
          rw [ne_eq, List.drop_eq_nil_iff]
          omega
        refine ⟨⟨false, (Nat.toDigits 10 d).take (m + 1), (Nat.toDigits 10 d).drop (m + 1), none⟩,
          ⟨fun c member => digits c (List.mem_of_mem_take member),
            ⟨c, cs.take m, by rw [spelled, List.take_succ_cons], fun zero => absurd zero notZero⟩,
            fun c member => digits c (List.mem_of_mem_drop member), (fun _ member => nomatch member)⟩,
          rfl, ?_, ?_⟩
        · simp [NumberText.chars, NumberText.fractionChars, NumberText.exponentChars, remaining]
        · have shift : (((Nat.toDigits 10 d).drop (m + 1)).length : ℤ) = -k := by
            rw [List.length_drop]
            omega
          simp only [List.take_append_drop, value, NumberText.exponentValue, shift, zero_sub, neg_neg]
      · -- zeros after the point before the digits
        rename_i negative outside
        have filled : List.replicate ((-k).toNat - (Nat.toDigits 10 d).length) '0' ++
            Nat.toDigits 10 d ≠ [] := by simp [spelled]
        refine ⟨⟨false, ['0'], List.replicate ((-k).toNat - (Nat.toDigits 10 d).length) '0' ++
            Nat.toDigits 10 d, none⟩,
          ⟨fun c member => by rw [List.mem_singleton.1 member]; rfl, ⟨'0', [], rfl, fun _ => rfl⟩, (digits_replicate_zero _).append digits,
            (fun _ member => nomatch member)⟩, rfl, ?_, ?_⟩
        · simp [NumberText.chars, NumberText.fractionChars, NumberText.exponentChars, filled]
        · have shift : ((List.replicate ((-k).toNat - (Nat.toDigits 10 d).length) '0' ++
              Nat.toDigits 10 d).length : ℤ) = -k := by
            rw [List.length_append, List.length_replicate]
            omega
          have leading : Nat.ofDigitChars 10 ['0'] 0 = 0 := rfl
          simp only [← List.append_assoc, Nat.ofDigitChars_append, leading,
            Nat.ofDigitChars_replicate_zero, Nat.mul_zero, value, NumberText.exponentValue, shift,
            zero_sub, neg_neg]
  · -- the exponent form: one digit before the point
    obtain ⟨below, pad, padDigits, padFilled, padText, padValue⟩ :=
      exponent_text form (k + (Nat.toDigits 10 d).length - 1)
    refine ⟨⟨false, [c], cs, some (below, pad)⟩,
      ⟨fun c' member => digits c' (by rw [spelled, List.mem_singleton.1 member]; exact .head _),
        ⟨c, [], rfl, fun _ => rfl⟩, fun c' member => digits c' (by rw [spelled]; exact .tail _ member),
        fun p member => by cases member; exact ⟨padDigits, padFilled⟩⟩, rfl, ?_, ?_⟩
    · -- the mantissa has a point exactly when more than one digit follows the first
      rw [padText, spelled]
      cases cs <;> simp [NumberText.chars, NumberText.fractionChars, NumberText.exponentChars]
    · have length : (Nat.toDigits 10 d).length = cs.length + 1 := by rw [spelled, List.length_cons]
      have exponent : NumberText.exponentValue ⟨false, [c], cs, some (below, pad)⟩ - cs.length = k := by
        rw [NumberText.exponentValue]
        dsimp only
        rw [padValue, length]
        push_cast
        ring
      rw [exponent, List.singleton_append, ← spelled, value]
/-! ## Written floats -/

theorem ofString_sign_append (negative : Bool) (s : String) :
    Bytes.ofString ((if negative then "-" else "") ++ s) =
      Utf8.encode (if negative then ['-'] else []) ++ Bytes.ofString s := by
  rw [Bytes.ofString_append, Bytes.ofString_eq_encode (if negative then "-" else "")]
  cases negative <;> rfl

/-- A finite float is written as a well-formed number whose decimal reads back as the float. -/
theorem render_text {x : F64} (finite : x.isFinite = true) :
    ∃ t : NumberText, t.WellFormed ∧ Bytes.ofString (floatNotation.render x) = Utf8.encode t.chars ∧
      Nearest.ofDecimal t.negative (Nat.ofDigitChars 10 (t.whole ++ t.fraction) 0)
        (t.exponentValue - t.fraction.length) = some x := by
  unfold Notation.render
  dsimp only
  by_cases zero : x.isZero = true
  · -- a zero is a lone digit with the sign of the value
    rw [if_pos zero]
    refine ⟨⟨x.negative, ['0'], [], none⟩, ⟨fun c member => by rw [List.mem_singleton.1 member]; rfl,
      ⟨'0', [], rfl, fun _ => rfl⟩, (fun _ member => nomatch member), (fun _ member => nomatch member)⟩,
      ?_, ?_⟩
    · rw [ofString_sign_append, Bytes.ofString_eq_encode "0"]
      cases x.negative <;> rfl
    · have digits : Nat.ofDigitChars 10 (['0'] ++ []) 0 = 0 := rfl
      simp only [digits, Nearest.ofDecimal, ↓reduceIte, Option.some.injEq]
      exact (F64.eq_zero_of_isZero zero).symm
  · rw [if_neg zero]
    have nonzero : x.isZero = false := by rwa [Bool.not_eq_true] at zero
    have near := Shortest.ofF64_roundsTo finite nonzero
    generalize Shortest.ofF64 x = p at near
    obtain ⟨d, k⟩ := p
    dsimp only at near ⊢
    -- the rounding interval of a non-zero value lies above zero, so its digits are not all zero
    have positive : d ≠ 0 := by
      rintro rfl
      have low := F64.roundingLow_ge nonzero
      have pos : (0 : ℚ) < 2 ^ (-1075 : ℤ) := by positivity
      rcases near.1 with below | ⟨_, same⟩
      · simp only [Nat.cast_zero, zero_mul] at below
        linarith
      · simp only [Nat.cast_zero, zero_mul] at same
        linarith
    obtain ⟨t, wf, unsigned, text, value⟩ := renderDigits_text floatNotation positive k
    refine ⟨{ t with negative := x.negative }, ⟨wf.whole, wf.lead, wf.fraction, wf.exponent⟩, ?_, ?_⟩
    · rw [ofString_sign_append, Bytes.ofString_ofList, ← text]
      simp only [NumberText.chars, NumberText.fractionChars, NumberText.exponentChars, unsigned,
        Bool.false_eq_true, if_false, List.nil_append, encode_append, List.append_assoc]
    · have sameExponent : ({ t with negative := x.negative } : NumberText).exponentValue =
          t.exponentValue := rfl
      rw [← value] at near
      rw [sameExponent]
      exact Nearest.ofDecimal_sign_of_roundsTo finite nonzero near

theorem numberToken?_render {x : F64} (finite : x.isFinite = true) {rest : Bytes} (after : Delimited rest) :
    numberToken? (Bytes.ofString (floatNotation.render x) ++ rest) =
      some (Bytes.ofString (floatNotation.render x), rest) := by
  obtain ⟨t, wf, text, _⟩ := render_text finite
  rw [text]
  exact NumberText.numberToken?_chars wf after

theorem ofDecimal_render {x : F64} (finite : x.isFinite = true) :
    Nearest.ofDecimal (decimalOfToken (Bytes.ofString (floatNotation.render x))).1
      (decimalOfToken (Bytes.ofString (floatNotation.render x))).2.1
      (decimalOfToken (Bytes.ofString (floatNotation.render x))).2.2 = some x := by
  obtain ⟨t, wf, text, reading⟩ := render_text finite
  rw [text, NumberText.decimalOfToken_chars wf]
  exact reading

end MarketData.Json
