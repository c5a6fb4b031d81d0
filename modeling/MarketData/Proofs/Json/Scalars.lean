import MarketData.Proofs.Json.Spelling

/-!
# Written scalars read back

A number is written as a `NumberText`: an integer as its sign and decimal digits
(`NumberText.ofInt`), a float in its shortest notation. Such a text starts with a minus sign or a
digit, so it is neither `null` nor a string, an object or an array, and the scanner of values
takes it whole as a number (`valueToken?_number`); a string literal it takes up to its closing
quote (`valueToken?_quote`).

Each scalar's reader gives back the value written: a text with its bytes that are no part of
well-formed UTF-8 replaced by U+FFFD (`reads_text`), an integer, a word and a finite float as
themselves (`reads_int`, `reads_word`, `reads_float`). An amount is written as its decimal
numeral in quotes and read by its own reader, which trims blanks, drops the quotes and parses the
digits (`readJson_render`).
-/

namespace MarketData.Json

open Utf8

/-! ## Number texts -/

/-- The first byte of a written number. -/
def NumberStart (x : UInt8) : Prop := x = 0x2D ∨ Bytes.isAsciiDigit x = true

namespace NumberText

/-- An integer as a number text: its sign and decimal digits. -/
def ofInt (i : Int) : NumberText := ⟨decide (i < 0), Nat.toDigits 10 i.natAbs, [], none⟩

theorem wellFormed_ofInt (i : Int) : (ofInt i).WellFormed := by
  obtain ⟨c, cs, spelled, lead⟩ := toDigits_cons i.natAbs
  refine ⟨toDigits_digits _, ⟨c, cs, spelled, fun zero => ?_⟩, (fun _ member => nomatch member),
    (fun _ member => nomatch member)⟩
  have vanishes := lead zero
  rw [vanishes, Nat.toDigits_zero] at spelled
  exact (List.cons.inj spelled).2.symm

theorem encode_chars_ofInt (i : Int) : Utf8.encode (ofInt i).chars = Bytes.ofString (toString i) := by
  rw [ofString_toString_int, encode_chars]
  by_cases negative : i < 0 <;> simp [ofInt, negative, encode_fractionChars, encode_exponentChars]

theorem chars_head {t : NumberText} (wf : t.WellFormed) :
    ∃ x body, Utf8.encode t.chars = x :: body ∧ NumberStart x := by
  obtain ⟨c, cs, spelled, _⟩ := wf.lead
  have digit := wf.whole c (by rw [spelled]; exact .head _)
  rw [encode_chars, spelled, encode_cons, encodeChar_of_lt (by have := digit_bounds digit; omega)]
  cases t.negative
  · simp only [Bool.false_eq_true, if_false, List.nil_append, List.cons_append]
    exact ⟨_, _, rfl, .inr (isAsciiDigit_toUInt8 digit)⟩
  · exact ⟨0x2D, _, rfl, .inl rfl⟩

end NumberText

theorem NumberStart.bounds {x : UInt8} (start : NumberStart x) : x = 0x2D ∨ 0x30 ≤ x.toNat ∧ x.toNat ≤ 0x39 := by
  rcases start with minus | digit
  · exact .inl minus
  · simp only [Bytes.isAsciiDigit, Bool.and_eq_true, decide_eq_true_eq, UInt8.le_iff_toNat_le,
      UInt8.reduceToNat] at digit
    exact .inr digit

theorem NumberStart.not_space {x : UInt8} (start : NumberStart x) : isSpace x = false := by
  rcases start.bounds with rfl | ⟨low, high⟩
  · rfl
  · simp only [isSpace, Bool.or_eq_false_iff, beq_eq_false_iff_ne, ne_eq, UInt8.ext_iff, UInt8.reduceToNat]
    omega

theorem NumberStart.ne {x : UInt8} (start : NumberStart x) {y : UInt8} (word : y.toNat ≥ 0x3A ∨ y.toNat < 0x2D) :
    x ≠ y := by
  rintro rfl
  rcases start.bounds with rfl | ⟨low, high⟩
  · simp at word
  · omega

theorem NumberText.solid {t : NumberText} (wf : t.WellFormed) : Solid (Utf8.encode t.chars) := by
  obtain ⟨x, body, opens, start⟩ := chars_head wf
  exact ⟨x, body, opens, NumberStart.not_space start⟩

/-! ## The scanner of values -/

theorem valueToken?_of_skipValue? {b rest : Bytes}
    (skips : skipValue? ((b ++ rest).length + 1) (b ++ rest) = some rest) :
    valueToken? (b ++ rest) = some (b, rest) := by
  rw [valueToken?, skips, Option.map_some, List.length_append, Nat.add_sub_cancel, List.take_left']
  rfl

theorem skipValue?_number {x : UInt8} (start : NumberStart x) (fuel : Nat) (rest : Bytes) :
    skipValue? (fuel + 1) (x :: rest) = (numberToken? (x :: rest)).map (·.2) := by
  rw [skipValue?]
  all_goals
    intro _ same
    exact start.ne (by decide) (List.cons.inj same).1

/-- A written number is scanned as one value, up to the delimiter after it. -/
theorem valueToken?_number {t : NumberText} (wf : t.WellFormed) {rest : Bytes} (after : Delimited rest) :
    valueToken? (Utf8.encode t.chars ++ rest) = some (Utf8.encode t.chars, rest) := by
  obtain ⟨x, body, opens, start⟩ := NumberText.chars_head wf
  apply valueToken?_of_skipValue?
  rw [opens, List.cons_append, skipValue?_number start, ← List.cons_append, ← opens,
    NumberText.numberToken?_chars wf after]
  rfl

/-- A string literal is scanned as one value, up to its closing quote. -/
theorem valueToken?_quote (b rest : Bytes) :
    valueToken? (Bytes.ofString (quote b) ++ rest) = some (Bytes.ofString (quote b), rest) := by
  apply valueToken?_of_skipValue?
  obtain ⟨body, opens⟩ : ∃ body, Bytes.ofString (quote b) ++ rest = 0x22 :: body :=
    ⟨_, by rw [ofString_quote]; rfl⟩
  rw [opens, skipValue?, ← opens, readString?_quote]
  rfl

theorem valueToken?_null (rest : Bytes) :
    valueToken? (Bytes.ofString "null" ++ rest) = some (Bytes.ofString "null", rest) := by
  apply valueToken?_of_skipValue?
  rw [ofString_null]
  simp [skipValue?, afterWord?, Bytes.stripPrefix?, ofString_null, List.isPrefixOf]


/-! ## Scalar documents -/

theorem spell_number (indent : String) (depth : Nat) (t : String) :
    spell indent depth (.number t) = Bytes.ofString t := by
  unfold spell
  split <;> rfl

theorem spell_string (indent : String) (depth : Nat) (s : Bytes) :
    spell indent depth (.string s) = Bytes.ofString (quote s) := by
  unfold spell
  split <;> rfl

theorem spell_null (indent : String) (depth : Nat) : spell indent depth .null = Bytes.ofString "null" := by
  unfold spell
  split <;> rfl

/-! ## Scalar readers -/

theorem run_takeNull_number {t : NumberText} (wf : t.WellFormed) (rest : Bytes) :
    takeNull.run (Utf8.encode t.chars ++ rest) = .ok (false, Utf8.encode t.chars ++ rest) := by
  obtain ⟨x, body, opens, start⟩ := NumberText.chars_head wf
  rw [opens]
  exact run_takeNull_other (startsWithNull_cons (start.ne (by decide)) _)

/-- A quoted text reads back with its bytes that are no part of well-formed UTF-8 replaced. -/
theorem reads_text (old b : Bytes) : Reads (readText old) (Bytes.ofString (quote b)) (Utf8.sanitize b) := by
  intro rest _
  obtain ⟨body, opens⟩ : ∃ body, Bytes.ofString (quote b) ++ rest = 0x22 :: body :=
    ⟨_, by rw [ofString_quote]; rfl⟩
  rw [readText, opens, run_bind_of_run (run_takeNull_other (startsWithNull_cons (by decide) _))]
  simp only [Bool.false_eq_true, ↓reduceIte]
  rw [← opens]
  exact run_expect (readString?_quote b rest)

/-- A written integer reads back as itself. -/
theorem reads_int (old v : Int64) : Reads (readInt old) (Bytes.ofString (toString v.toInt)) v := by
  intro rest after
  rw [← NumberText.encode_chars_ofInt, readInt,
    run_bind_of_run (run_takeNull_number (NumberText.wellFormed_ofInt _) rest)]
  simp only [Bool.false_eq_true, ↓reduceIte]
  rw [NumberText.encode_chars_ofInt, run_bind_of_run (run_expect (integerToken?_toString v.toInt after))]
  have within : (-Int.pow 2 63 ≤ v.toInt && v.toInt < Int.pow 2 63) = true := by
    simp only [Bool.and_eq_true, decide_eq_true_eq]
    exact ⟨v.le_toInt, v.toInt_lt⟩
  simp only [within, ↓reduceIte, Int64.ofInt_toInt]
  rfl

theorem ofString_toString_nat (n : Nat) :
    ∃ x body, Bytes.ofString (toString n) = x :: body ∧ Bytes.isAsciiDigit x = true := by
  obtain ⟨c, cs, spelled, _⟩ := toDigits_cons n
  have digit := toDigits_digits n c (by rw [spelled]; exact .head _)
  have unsigned : Bytes.ofString (toString n) = Utf8.encode (Nat.toDigits 10 n) := by
    have signed := ofString_toString_int n
    rw [if_neg (by omega), List.nil_append, Int.natAbs_natCast] at signed
    exact signed
  rw [unsigned, spelled, encode_cons, encodeChar_of_lt (by have := digit_bounds digit; omega)]
  exact ⟨_, _, rfl, isAsciiDigit_toUInt8 digit⟩

/-- A written word reads back as itself. -/
theorem reads_word (old v : UInt64) : Reads (readWord old) (Bytes.ofString (toString v.toNat)) v := by
  intro rest after
  obtain ⟨x, body, opens, digit⟩ := ofString_toString_nat v.toNat
  have start : NumberStart x := .inr digit
  rw [readWord, opens, List.cons_append, run_bind_of_run (run_takeNull_other (startsWithNull_cons (start.ne (by decide)) _))]
  simp only [Bool.false_eq_true, ↓reduceIte]
  have notMinus : x ≠ 0x2D := by
    rintro rfl
    exact absurd digit (by decide)
  rw [run_bind_of_run (rfl : (get : Reader Bytes).run _ = .ok (_, _))]
  simp only [List.head?_cons, beq_iff_eq, Option.some.injEq, notMinus, ↓reduceIte]
  have token : integerToken? (Bytes.ofString (toString v.toNat) ++ rest) = some ((v.toNat : Int), rest) :=
    integerToken?_toString (v.toNat : Int) after
  rw [← List.cons_append, ← opens, run_bind_of_run (run_expect token)]
  have within : (0 ≤ (v.toNat : Int) && (v.toNat : Int) < Int.pow 2 64) = true := by
    have small := v.toNat_lt
    have bound : Int.pow 2 64 = 2 ^ 64 := rfl
    simp only [Bool.and_eq_true, decide_eq_true_eq, bound]
    exact ⟨Int.natCast_nonneg _, by exact_mod_cast small⟩
  simp only [within, ↓reduceIte, Int.toNat_natCast, UInt64.ofNat_toNat]
  rfl

/-- A written finite float reads back as itself. -/
theorem reads_float (old : F64) {x : F64} (finite : x.isFinite = true) :
    Reads (readFloat old) (Bytes.ofString (floatNotation.render x)) x := by
  intro rest after
  have token := numberToken?_render finite after
  have value := ofDecimal_render finite
  obtain ⟨t, wf, text, _⟩ := render_text finite
  rw [readFloat, text, run_bind_of_run (run_takeNull_number wf rest)]
  simp only [Bool.false_eq_true, ↓reduceIte]
  rw [← text, run_bind_of_run (run_expect token)]
  generalize decimalOfToken (Bytes.ofString (floatNotation.render x)) = d at value ⊢
  obtain ⟨negative, c, k⟩ := d
  simp only at value ⊢
  rw [value]
  rfl


/-! ## Amounts -/

section Amounts

theorem ofString_toString_nat_eq (n : Nat) : Bytes.ofString (toString n) = Utf8.encode (Nat.toDigits 10 n) := by
  have signed := ofString_toString_int n
  rw [if_neg (by omega), List.nil_append, Int.natAbs_natCast] at signed
  exact signed

theorem alphanum_bounds {c : Char} (plain : c.isAlphanum = true) :
    48 ≤ c.toNat ∧ c.toNat ≤ 57 ∨ 65 ≤ c.toNat ∧ c.toNat ≤ 90 ∨ 97 ≤ c.toNat ∧ c.toNat ≤ 122 := by
  have ends : ('0'.val.toNat, '9'.val.toNat, 'A'.val.toNat, 'Z'.val.toNat, 'a'.val.toNat, 'z'.val.toNat) =
      (48, 57, 65, 90, 97, 122) := rfl
  simp only [Prod.mk.injEq] at ends
  simp only [Char.isAlphanum, Char.isAlpha, Char.isUpper, Char.isLower, Char.isDigit, Bool.or_eq_true,
    Bool.and_eq_true, decide_eq_true_eq, ge_iff_le, UInt32.le_iff_toNat_le] at plain
  simp only [Char.toNat]
  omega

theorem isAlphanum_of_isDigit {c : Char} (digit : c.isDigit = true) : c.isAlphanum = true := by
  simp [Char.isAlphanum, digit]

theorem escapeChar_alphanum {c : Char} (plain : c.isAlphanum = true) : escapeChar c = [c] := by
  have bounds := alphanum_bounds plain
  have other : ∀ d : Char, d.toNat < 48 ∨ 57 < d.toNat ∧ d.toNat < 65 ∨ 90 < d.toNat ∧ d.toNat < 97 ∨
      122 < d.toNat → c ≠ d := by
    rintro d outside rfl
    omega
  rw [escapeChar, if_neg (other _ (by decide)), if_neg (other _ (by decide)), if_neg (other _ (by decide)),
    if_neg (other _ (by decide)), if_neg (other _ (by decide)), if_neg]
  simp only [Bool.or_eq_true, decide_eq_true_eq, beq_iff_eq, not_or]
  exact ⟨⟨⟨⟨⟨by omega, other _ (by decide)⟩, other _ (by decide)⟩, other _ (by decide)⟩, by omega⟩, by omega⟩

theorem ofString_quote_alphanum {cs : List Char} (plain : ∀ c ∈ cs, c.isAlphanum = true) :
    Bytes.ofString (quote (Utf8.encode cs)) = 0x22 :: (Utf8.encode cs ++ [0x22]) := by
  have kept : cs.flatMap (fun c => escapePiece (.char c)) = cs := by
    induction cs with
    | nil => rfl
    | cons c cs inductionHypothesis =>
      rw [List.flatMap_cons, inductionHypothesis fun d member => plain d (.tail _ member)]
      exact congrArg (· ++ cs) (escapeChar_alphanum (plain c (.head _)))
  rw [ofString_quote, pieces_encode, List.flatMap_map]
  exact congrArg (fun cs => 0x22 :: (Utf8.encode cs ++ [0x22])) kept

theorem isBlank_of_graphic {c : Char} (low : 0x21 ≤ c.toNat) (high : c.toNat < 0x7F) : isBlank c = false := by
  unfold isBlank
  rw [if_pos (by omega)]
  simp only [Bool.or_eq_false_iff, beq_eq_false_iff_ne, ne_eq]
  omega

theorem isBlank_of_alphanum {c : Char} (plain : c.isAlphanum = true) : isBlank c = false := by
  have bounds := alphanum_bounds plain
  exact isBlank_of_graphic (by omega) (by omega)

theorem trimBlank_encode_ends {cs : List Char} (first : ∀ c ∈ cs.head?, isBlank c = false)
    (last : ∀ c ∈ cs.getLast?, isBlank c = false) : Bytes.trimBlank (Utf8.encode cs) = Utf8.encode cs := by
  have front : (cs.map Piece.char).dropWhile Piece.isBlank = cs.map Piece.char := by
    cases cs with
    | nil => rfl
    | cons c rest => exact List.dropWhile_cons_of_neg (by simp [Piece.isBlank, first c (by simp)])
  have back : (cs.map Piece.char).reverse.dropWhile Piece.isBlank = (cs.map Piece.char).reverse := by
    rw [← List.map_reverse]
    cases reversed : cs.reverse with
    | nil => rfl
    | cons c rest =>
      have final : c ∈ cs.getLast? := by
        rw [List.getLast?_eq_head?_reverse, reversed]
        simp
      exact List.dropWhile_cons_of_neg (by simp [Piece.isBlank, last c final])
  rw [Bytes.trimBlank, pieces_encode, front, back, List.reverse_reverse, joinPieces, List.flatMap_map]
  rfl

theorem trimBlank_encode {cs : List Char} (solid : ∀ c ∈ cs, isBlank c = false) :
    Bytes.trimBlank (Utf8.encode cs) = Utf8.encode cs :=
  trimBlank_encode_ends (fun c first => solid c (List.mem_of_mem_head? first))
    (fun c last => solid c (List.mem_of_mem_getLast? last))

theorem trimBlank_quote (b : Bytes) : (Bytes.ofString (quote b)).trimBlank = Bytes.ofString (quote b) := by
  have solid : isBlank '"' = false := by decide
  rw [quote, Bytes.ofString_ofList]
  exact trimBlank_encode_ends (by simp [solid]) (by rw [List.getLast?_concat]; simpa using solid)

theorem dropWhile_replicate_append (q : UInt8) (i : Nat) {l : Bytes} (opens : l.head? ≠ some q) :
    (List.replicate i q ++ l).dropWhile (· == q) = l := by
  induction i with
  | zero =>
    cases l with
    | nil => rfl
    | cons x rest => exact List.dropWhile_cons_of_neg (by simpa using opens)
  | succ i inductionHypothesis =>
    rw [List.replicate_succ, List.cons_append, List.dropWhile_cons_of_pos (by simp), inductionHypothesis]

/-- Dropping every quote at both ends of quotes around a text that neither starts nor ends with
one leaves the text. -/
theorem unquote_replicate (q : UInt8) (i j : Nat) {t : Bytes} (opens : t.head? ≠ some q)
    (closes : t.getLast? ≠ some q) :
    (((List.replicate i q ++ t ++ List.replicate j q).dropWhile (· == q)).reverse.dropWhile (· == q)).reverse = t := by
  cases t with
  | nil =>
    rw [List.append_nil, ← List.replicate_add, List.dropWhile_eq_nil_iff.2 (by simp)]
    rfl
  | cons x rest =>
    have reversedOpens : (x :: rest).reverse.head? ≠ some q := by
      rwa [← List.getLast?_eq_head?_reverse]
    rw [List.append_assoc, dropWhile_replicate_append q i (by simpa using opens), List.reverse_append,
      List.reverse_replicate, dropWhile_replicate_append q j reversedOpens, List.reverse_reverse]

theorem unquote_quoted (q : UInt8) {t : Bytes} (opens : t.head? ≠ some q) (closes : t.getLast? ≠ some q) :
    (((q :: (t ++ [q])).dropWhile (· == q)).reverse.dropWhile (· == q)).reverse = t :=
  unquote_replicate q 1 1 opens closes

theorem isAsciiDigit_of_mem_encode {ds : List Char} (digits : DecimalDigits ds) :
    ∀ x ∈ Utf8.encode ds, Bytes.isAsciiDigit x = true := by
  rw [encode_digits digits]
  intro x member
  obtain ⟨c, within, rfl⟩ := List.mem_map.1 member
  exact isAsciiDigit_toUInt8 (digits c within)

theorem digitValue_of_isAsciiDigit {x : UInt8} (digit : Bytes.isAsciiDigit x = true) :
    Numeral.digitValue x = x.toNat - 0x30 := by
  unfold Numeral.digitValue
  rw [if_pos (by simpa [Bytes.isAsciiDigit] using digit)]

theorem readDigits?_digits {ds : List Char} (digits : DecimalDigits ds) (nonempty : ds ≠ []) :
    Numeral.readDigits? 10 (Utf8.encode ds) = some (Nat.ofDigitChars 10 ds 0) := by
  have steps : ∀ b : Bytes, (∀ x ∈ b, Bytes.isAsciiDigit x = true) → ∀ init,
      b.foldlM (fun acc x => if Numeral.digitValue x < 10 then some (acc * 10 + Numeral.digitValue x) else none)
        init = some (b.foldl (fun acc d => acc * 10 + (d.toNat - 0x30)) init) := by
    intro b
    induction b with
    | nil => intro _ _; rfl
    | cons x b inductionHypothesis =>
      intro all init
      have digit := all x (.head _)
      have small : Numeral.digitValue x < 10 := by
        rw [digitValue_of_isAsciiDigit digit]
        have := (NumberStart.bounds (.inr digit)).resolve_left (by rintro rfl; exact absurd digit (by decide))
        omega
      rw [List.foldlM_cons, if_pos small, Option.bind_eq_bind, Option.bind_some, List.foldl_cons,
        inductionHypothesis fun y member => all y (.tail _ member), digitValue_of_isAsciiDigit digit]
  have filled : (Utf8.encode ds).isEmpty = false := by
    obtain ⟨c, cs, rfl⟩ := List.exists_cons_of_ne_nil nonempty
    rw [encode_cons]
    exact List.isEmpty_eq_false_iff.2 (List.append_ne_nil_of_left_ne_nil (by simp [encodeChar]) _)
  rw [Numeral.readDigits?, filled, if_neg Bool.false_ne_true, steps _ (isAsciiDigit_of_mem_encode digits),
    foldl_digits digits]

theorem second_mem {l rest : Bytes} {a b : UInt8} (opens : l = a :: b :: rest) : b ∈ l := by
  rw [opens]
  exact .tail _ (.head _)

theorem readSigned?_digits (base : Nat) {b : Bytes} (digits : ∀ x ∈ b, Bytes.isAsciiDigit x = true) :
    Numeral.readSigned? base b = (Numeral.readDigits? base b).map fun n => (n : Int) := by
  unfold Numeral.readSigned?
  split
  · exact absurd (digits 0x2D (.head _)) (by decide)
  · exact absurd (digits 0x2B (.head _)) (by decide)
  · rfl

theorem ofNatBelow_toNat (v : UInt128) : UInt128.ofNatBelow v.toNat = v := by
  obtain ⟨low, high⟩ := v
  have lowSmall := low.toNat_lt
  have highSmall := high.toNat_lt
  simp only [UInt128.ofNatBelow, UInt128.toNat, Nat.pow_eq, Nat.reducePow] at lowSmall highSmall ⊢
  have lowPart : (high.toNat * 18446744073709551616 + low.toNat) % 18446744073709551616 = low.toNat := by
    omega
  have highPart : (high.toNat * 18446744073709551616 + low.toNat) / 18446744073709551616 = high.toNat := by
    omega
  rw [lowPart, highPart]
  simp only [UInt64.ofNat_toNat]

theorem ofInt_natCast {n : Nat} (small : n < Nat.pow 2 128) : UInt128.ofInt n = .ok (UInt128.ofNatBelow n) := by
  rw [UInt128.ofInt_of_lt (Int.natCast_nonneg n) (by rwa [Int.toNat_natCast]), Int.toNat_natCast]

theorem parse_toString {n : Nat} (small : n < Nat.pow 2 128) :
    UInt128.parse (Bytes.ofString (toString n)) = .ok (UInt128.ofNatBelow n) := by
  have digits := toDigits_digits n
  obtain ⟨c, cs, spelled, lead⟩ := toDigits_cons n
  rw [ofString_toString_nat_eq]
  unfold UInt128.parse
  rw [trimBlank_encode fun c member => isBlank_of_alphanum (isAlphanum_of_isDigit (digits c member))]
  have written := isAsciiDigit_of_mem_encode digits
  have read : Numeral.readSigned? 10 (Utf8.encode (Nat.toDigits 10 n)) = some (n : Int) := by
    rw [readSigned?_digits _ written, readDigits?_digits digits (by rw [spelled]; exact List.cons_ne_nil _ _),
      Nat.ofDigitChars_ten_toDigits]
    rfl
  dsimp only
  -- the prefix that selects base 16 has a letter in it, and digits have none
  split
  all_goals rename_i signed
  all_goals split at signed
  all_goals first
    | rename_i hex; exact absurd (written _ (second_mem hex)) (by decide)
    | skip
  · rw [read, Option.some.injEq] at signed
    rw [← signed]
    exact ofInt_natCast small
  · rw [read] at signed
    cases signed

/-- The JSON form of an amount, its decimal numeral in quotes, reads back as the amount. -/
theorem readJson_render (old v : UInt128) :
    UInt128.readJson old (Bytes.ofString (quote (Bytes.ofString v.render))) = .ok v := by
  have digits := toDigits_digits v.toNat
  have written := isAsciiDigit_of_mem_encode digits
  have notNull : (0x22 :: (Utf8.encode (Nat.toDigits 10 v.toNat) ++ [0x22]) == Bytes.ofString "null") = false := by
    rw [ofString_null]
    rfl
  -- the digits hold no quote, so dropping the quotes leaves them
  have opens : (Utf8.encode (Nat.toDigits 10 v.toNat)).head? ≠ some 0x22 := fun first =>
    absurd (written _ (List.mem_of_mem_head? first)) (by decide)
  have closes : (Utf8.encode (Nat.toDigits 10 v.toNat)).getLast? ≠ some 0x22 := fun last =>
    absurd (written _ (List.mem_of_mem_getLast? last)) (by decide)
  rw [UInt128.render_eq, ofString_toString_nat_eq]
  unfold UInt128.readJson
  dsimp only
  rw [trimBlank_quote, ofString_quote_alphanum fun c member => isAlphanum_of_isDigit (digits c member), notNull,
    if_neg Bool.false_ne_true, unquote_quoted 0x22 opens closes, ← ofString_toString_nat_eq,
    parse_toString (UInt128.toNat_lt v), ofNatBelow_toNat]

theorem reads_amount (old v : UInt128) :
    Reads (readValue .amount old) (Bytes.ofString (quote (Bytes.ofString v.render))) v := by
  intro rest _
  show (readRaw (UInt128.readJson old)).run _ = _
  rw [readRaw, run_bind_of_run (run_expect (valueToken?_quote _ rest)), readJson_render]
  rfl

end Amounts

end MarketData.Json
