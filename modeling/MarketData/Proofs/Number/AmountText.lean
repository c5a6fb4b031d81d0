import MarketData.Proofs.Enumeration

/-!
# The text forms of amounts

An amount is written as the decimal numeral of its value `high · 2^64 + low`, and both ways the
writer has of producing it, from the low word alone or from the whole value, give that numeral
with no leading zero (`Canonical`). Reading takes it back, as text and as JSON.

Reading a text trims its blanks, takes off one `0x` or `0X` prefix, which selects base 16
(`Prefixed`), and reads an optional sign and then one or more digits of the base. A numeral
whose value lies in `[0, 2^128)` gives that amount, so `-0` reads as zero; any other value fails
with `rangeExceeded`, and a text that is no numeral with `malformedPayload` (`ReadsAmount`).
JSON text trimmed to `null` keeps the prior value; any other has the double quotes at both of
its ends dropped, however many there are, and is read as above, so a bare number is read too.
The main statement is `amount_text_codec`.
-/

namespace MarketData

open Json Utf8

/-- `ds` is the canonical decimal numeral of `n`: decimal digits that spell `n`, with no
leading zero unless `n` is zero. -/
structure Canonical (ds : Bytes) (n : Nat) : Prop where
  /-- The digits spell the value. -/
  spells : Numeral.Spells 10 ds n
  /-- A leading zero is the whole numeral. -/
  noLeadingZero : ∀ rest, ds = 0x30 :: rest → rest = []

/-- The base a trimmed amount is read in and the numeral after its prefix: `0x` and `0X`
select base 16, and any other text is read whole in base 10. -/
inductive Prefixed : Bytes → Nat → Bytes → Prop
  /-- The lowercase prefix. -/
  | lower (rest : Bytes) : Prefixed (0x30 :: 0x78 :: rest) 16 rest
  /-- The uppercase prefix. -/
  | upper (rest : Bytes) : Prefixed (0x30 :: 0x58 :: rest) 16 rest
  /-- No prefix. -/
  | plain (b : Bytes) : (∀ rest, b ≠ 0x30 :: 0x78 :: rest) → (∀ rest, b ≠ 0x30 :: 0x58 :: rest) → Prefixed b 10 b

/-- What reading an amount from the digits of a base gives: the amount of a numeral in range,
`rangeExceeded` for a numeral out of range, and `malformedPayload` for a text that is no
numeral. -/
structure ReadsAmount (result : Except Failure UInt128) (base : Nat) (digits : Bytes) : Prop where
  /-- A numeral in range reads as the amount of its value. -/
  inRange : ∀ n : Int, Numeral.Signed base digits n → 0 ≤ n → n < 2 ^ 128 →
    ∃ u, result = .ok u ∧ (u.toNat : Int) = n
  /-- A negative numeral, or one of 2^128 or more, is out of range. -/
  outOfRange : ∀ n : Int, Numeral.Signed base digits n → n < 0 ∨ 2 ^ 128 ≤ n → FailsWith result .rangeExceeded
  /-- A text that is no numeral is malformed. -/
  malformed : (∀ n, ¬Numeral.Signed base digits n) → FailsWith result .malformedPayload

theorem Prefixed.base_le {b digits : Bytes} {base : Nat} (prefixed : Prefixed b base digits) : base ≤ 36 := by
  cases prefixed <;> omega

namespace UInt128

/-! ## Writing -/

theorem canonical_toString (n : Nat) : Canonical (Bytes.ofString (toString n)) n where
  spells := spells_toString n
  noLeadingZero rest opens := by
    obtain ⟨c, cs, spelled, lead⟩ := toDigits_cons n
    have digit := toDigits_digits n c (by rw [spelled]; exact .head _)
    have bounds := digit_bounds digit
    rw [ofString_toString_nat_eq, encode_digits (toDigits_digits n), spelled, List.map_cons, List.cons.injEq] at opens
    obtain ⟨first, tail⟩ := opens
    have value : c.toNat.toUInt8.toNat = 0x30 := by rw [first]; rfl
    rw [toNat_toUInt8_of_isDigit digit] at value
    -- the leading digit is a zero only in the numeral of zero
    have zero : n = 0 := lead (Char.toNat_inj.1 (value : c.toNat = '0'.toNat))
    subst zero
    have single : Nat.toDigits 10 0 = ['0'] := rfl
    rw [single, List.cons.injEq] at spelled
    rw [← tail, ← spelled.2]
    rfl

theorem canonical_render (u : UInt128) : Canonical (Bytes.ofString u.render) u.toNat := by
  rw [render_eq]
  exact canonical_toString u.toNat

/-! ## Reading a text -/

theorem ofInt_of_range {n : Int} (nonneg : 0 ≤ n) (small : n < 2 ^ 128) : ∃ u, ofInt n = .ok u ∧ (u.toNat : Int) = n := by
  have fits : n.toNat < Nat.pow 2 128 := by
    simp only [Nat.pow_eq, Nat.reducePow]
    omega
  refine ⟨ofNatBelow n.toNat, ofInt_of_lt nonneg fits, ?_⟩
  rw [toNat_ofNatBelow fits]
  omega

theorem ofInt_of_out_of_range {n : Int} (outside : n < 0 ∨ 2 ^ 128 ≤ n) : FailsWith (ofInt n) .rangeExceeded := by
  unfold ofInt
  by_cases negative : n < 0
  · rw [if_pos negative]
    exact failsWith_coded _ _
  · have large : ¬n.toNat < Nat.pow 2 128 := by
      simp only [Nat.pow_eq, Nat.reducePow]
      omega
    rw [if_neg negative, if_pos (Nat.lt_of_not_le (mt bitLength_le_iff.1 large))]
    exact failsWith_coded _ _

theorem parse_of_prefixed {text digits : Bytes} {base : Nat} (prefixed : Prefixed text.trimBlank base digits) :
    (∀ n, Numeral.readSigned? base digits = some n → parse text = ofInt n) ∧
      (Numeral.readSigned? base digits = none → FailsWith (parse text) .malformedPayload) := by
  unfold parse
  generalize text.trimBlank = trimmed at prefixed
  -- `simp` settles the prefix match from the constructor's pattern, or from its exclusions
  cases prefixed <;> simp only [] <;>
    exact ⟨fun n read => by rw [read], fun unread => by rw [unread]; exact failsWith_coded _ _⟩

theorem parse_reads {text digits : Bytes} {base : Nat} (prefixed : Prefixed text.trimBlank base digits) :
    ReadsAmount (parse text) base digits where
  inRange n signed nonneg small := by
    rw [(parse_of_prefixed prefixed).1 n ((Numeral.readSigned?_eq_some_iff prefixed.base_le).2 signed)]
    exact ofInt_of_range nonneg small
  outOfRange n signed outside := by
    rw [(parse_of_prefixed prefixed).1 n ((Numeral.readSigned?_eq_some_iff prefixed.base_le).2 signed)]
    exact ofInt_of_out_of_range outside
  malformed unsigned := by
    apply (parse_of_prefixed prefixed).2
    cases read : Numeral.readSigned? base digits with
    | none => rfl
    | some n => exact absurd ((Numeral.readSigned?_eq_some_iff prefixed.base_le).1 read) (unsigned n)

/-! ## Reading JSON -/

theorem readJson_of_null {prior : UInt128} {text : Bytes} (null : text.trimBlank = Bytes.ofString "null") :
    readJson prior text = .ok prior := by
  unfold readJson
  dsimp only
  rw [if_pos (by rw [null]; exact beq_self_eq_true _)]

theorem readJson_of_quoted {prior : UInt128} {text t : Bytes} {i j : Nat}
    (quoted : text.trimBlank = List.replicate i 0x22 ++ t ++ List.replicate j 0x22)
    (opens : t.head? ≠ some 0x22) (closes : t.getLast? ≠ some 0x22) (notNull : text.trimBlank ≠ Bytes.ofString "null") :
    readJson prior text = parse t := by
  unfold readJson
  dsimp only
  rw [if_neg (by simpa using notNull), quoted, unquote_replicate 0x22 i j opens closes]

theorem ofString_jsonText (u : UInt128) : Bytes.ofString u.jsonText = Bytes.ofString (quote (Bytes.ofString u.render)) := by
  have digits := toDigits_digits u.toNat
  have quoteByte : Bytes.ofString "\"" = [0x22] := by
    rw [Bytes.ofString_eq_encode]
    decide
  rw [jsonText, Bytes.ofString_append, Bytes.ofString_append, quoteByte, render_eq, ofString_toString_nat_eq,
    ofString_quote_alphanum fun c member => isAlphanum_of_isDigit (digits c member), List.singleton_append,
    List.cons_append]

/-- The text forms of an amount: both ways of writing it give its canonical decimal numeral,
which reads back as the amount from text and from JSON over any prior value; any text is read
as the signed numeral after its prefix in the base the prefix selects, and JSON text is `null`,
which keeps the prior value, or is read as the text inside its quotes. -/
theorem amount_text_codec :
    (∀ u : UInt128, Canonical (Bytes.ofString u.render) u.toNat) ∧
    (∀ u : UInt128, parse (Bytes.ofString u.render) = .ok u) ∧
    (∀ prior u : UInt128, readJson prior (Bytes.ofString u.jsonText) = .ok u) ∧
    (∀ text base digits, Prefixed text.trimBlank base digits → ReadsAmount (parse text) base digits) ∧
    (∀ prior text, text.trimBlank = Bytes.ofString "null" → readJson prior text = .ok prior) ∧
    (∀ prior text i t j, text.trimBlank = List.replicate i 0x22 ++ t ++ List.replicate j 0x22 →
      t.head? ≠ some 0x22 → t.getLast? ≠ some 0x22 → text.trimBlank ≠ Bytes.ofString "null" →
      readJson prior text = parse t) := by
  refine ⟨canonical_render, fun u => ?_, fun prior u => ?_, fun _ _ _ prefixed => parse_reads prefixed,
    fun _ _ null => readJson_of_null null, fun _ _ _ _ _ quoted opens closes notNull =>
      readJson_of_quoted quoted opens closes notNull⟩
  · rw [render_eq, parse_toString (toNat_lt u), ofNatBelow_toNat]
  · rw [ofString_jsonText, readJson_render]

/-- `-0` reads as zero. -/
theorem parse_minus_zero : ∃ u, parse (Bytes.ofString "-0") = .ok u ∧ (u.toNat : Int) = 0 := by
  have chars : Bytes.ofString "-0" = Utf8.encode ['-', '0'] := by
    rw [Bytes.ofString_eq_encode]
    rfl
  have solid : (Bytes.ofString "-0").trimBlank = [0x2D, 0x30] := by
    rw [chars, trimBlank_encode fun c member => by
      simp only [List.mem_cons, List.not_mem_nil, or_false] at member
      rcases member with rfl | rfl <;> decide]
    rfl
  have prefixed : Prefixed (Bytes.ofString "-0").trimBlank 10 [0x2D, 0x30] := by
    rw [solid]
    exact .plain _ (by simp) (by simp)
  have signed : Numeral.Signed 10 [0x2D, 0x30] (-((0 : Nat) : Int)) :=
    .minus ⟨List.cons_ne_nil _ _, fun x member => by
      rw [List.mem_singleton.1 member, Numeral.digitValue_lt_ten_iff]
      decide, rfl⟩
  exact (amount_text_codec.2.2.2.1 _ _ _ prefixed).inRange _ signed (by simp) (by norm_num)

end UInt128

end MarketData
