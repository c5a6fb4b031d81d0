import MarketData.Proofs.Text.Utf8
import MarketData.Json.Document
import MarketData.Json.Lexer

/-!
# String literals read back

The reader of a string literal takes the writer's escapes back piece by piece
(`stringBody_escapePiece`): a short escape and a `\u` escape of four hexadecimal digits give the
character they were written for, any other character is read as its own encoding, and the
`�` written for a byte outside any well-formed sequence gives U+FFFD. So a quoted byte
string reads back as the same bytes with each such byte replaced by U+FFFD, whatever follows it
(`readString?_quote`).
-/

namespace MarketData.Json

open Utf8

/-! ## The branches of the string reader -/

theorem stringBody_quote (acc rest : Bytes) : stringBody acc (0x22 :: rest) = some (acc, rest) := by
  rw [stringBody]

theorem stringBody_simpleEscape {acc rest : Bytes} {e x : UInt8} (notUnicode : e ≠ 0x75)
    (stands : simpleEscape? e = some x) :
    stringBody acc (0x5C :: e :: rest) = stringBody (acc ++ [x]) rest := by
  rw [stringBody, if_neg (by simpa using notUnicode), stands]

theorem stringBody_unicode {acc rest after : Bytes} {n : ℕ} (digits : hex4? rest = some (n, after)) :
    stringBody acc (0x5C :: 0x75 :: rest) =
      stringBody (acc ++ encodeChar (unicodeEscape n after).1) (unicodeEscape n after).2 := by
  rw [stringBody]
  simp only [beq_self_eq_true, if_true]
  split
  · rename_i n' after' read
    rw [digits] at read
    cases read
    rfl
  · rename_i unread
    rw [digits] at unread
    cases unread

theorem stringBody_char {acc rest after : Bytes} {x : UInt8} {c : Char} (printable : 0x20 ≤ x)
    (notQuote : x ≠ 0x22) (notBackslash : x ≠ 0x5C)
    (read : decodeHead? (x :: rest) = some (c, after)) :
    stringBody acc (x :: rest) = stringBody (acc ++ encodeChar c) after := by
  rw [stringBody, if_neg (by simpa [UInt8.lt_iff_toNat_lt, UInt8.le_iff_toNat_le] using printable)]
  · split
    · rename_i c' after' decoded
      rw [read] at decoded
      cases decoded
      rfl
    · rename_i undecoded
      rw [read] at undecoded
      cases undecoded
  · exact notQuote
  · rintro _ _ backslash _
    exact notBackslash backslash

/-! ## Escapes -/

theorem encodeChar_hexDigit : ∀ d : Fin 16,
    encodeChar (Bytes.hexDigit d) = [(Bytes.hexDigit d).toNat.toUInt8] ∧
      hexByte? (Bytes.hexDigit d).toNat.toUInt8 = some d.val := by
  decide

theorem hex4?_hex4 {n : ℕ} (small : n < 0x10000) (rest : Bytes) :
    hex4? (encode (hex4 n) ++ rest) = some (n, rest) := by
  have digits : hex4 n = [Bytes.hexDigit (n / 4096 % 16), Bytes.hexDigit (n / 256 % 16),
      Bytes.hexDigit (n / 16 % 16), Bytes.hexDigit (n / 1 % 16)] := rfl
  obtain ⟨first, firstValue⟩ := encodeChar_hexDigit ⟨n / 4096 % 16, by omega⟩
  obtain ⟨second, secondValue⟩ := encodeChar_hexDigit ⟨n / 256 % 16, by omega⟩
  obtain ⟨third, thirdValue⟩ := encodeChar_hexDigit ⟨n / 16 % 16, by omega⟩
  obtain ⟨fourth, fourthValue⟩ := encodeChar_hexDigit ⟨n / 1 % 16, by omega⟩
  rw [digits, encode, List.flatMap_cons, List.flatMap_cons, List.flatMap_cons, List.flatMap_cons,
    List.flatMap_nil, first, second, third, fourth]
  simp only [List.cons_append, List.nil_append, List.append_nil, hex4?, firstValue, secondValue,
    thirdValue, fourthValue]
  have value : ((n / 4096 % 16 * 16 + n / 256 % 16) * 16 + n / 16 % 16) * 16 + n / 1 % 16 = n := by
    omega
  rw [value]

/-- A `\u` escape of a code point of the basic plane that is no surrogate reads as its
character. -/
theorem stringBody_hex4 {n : ℕ} (small : n < 0x10000) (plain : isSurrogate n = false)
    (acc more : Bytes) :
    stringBody acc (encode ('\\' :: 'u' :: hex4 n) ++ more) =
      stringBody (acc ++ encodeChar (Char.ofNat n)) more := by
  have escaped : encode ('\\' :: 'u' :: hex4 n) ++ more = 0x5C :: 0x75 :: (encode (hex4 n) ++ more) :=
    rfl
  rw [escaped, stringBody_unicode (hex4?_hex4 small more)]
  simp only [unicodeEscape, plain, Bool.false_eq_true, if_false]

theorem stringBody_escapeChar (c : Char) (acc more : Bytes) :
    stringBody acc (encode (escapeChar c) ++ more) = stringBody (acc ++ encodeChar c) more := by
  unfold escapeChar
  split_ifs with quote backslash newline carriage tab special
  · subst quote
    exact stringBody_simpleEscape (by decide) rfl
  · subst backslash
    exact stringBody_simpleEscape (by decide) rfl
  · subst newline
    exact stringBody_simpleEscape (by decide) rfl
  · subst carriage
    exact stringBody_simpleEscape (by decide) rfl
  · subst tab
    exact stringBody_simpleEscape (by decide) rfl
  · -- control characters and the characters unsafe in HTML, all in the basic plane
    simp only [Bool.or_eq_true, decide_eq_true_eq, beq_iff_eq] at special
    have code : c.toNat < 0x20 ∨ c.toNat = 60 ∨ c.toNat = 62 ∨ c.toNat = 38 ∨
        c.toNat = 0x2028 ∨ c.toNat = 0x2029 := by
      rcases special with ((((below | rfl) | rfl) | rfl) | line) | paragraph
      · exact .inl below
      · exact .inr (.inl rfl)
      · exact .inr (.inr (.inl rfl))
      · exact .inr (.inr (.inr (.inl rfl)))
      · exact .inr (.inr (.inr (.inr (.inl line))))
      · exact .inr (.inr (.inr (.inr (.inr paragraph))))
    have plain : isSurrogate c.toNat = false := by
      simp only [isSurrogate, Bool.and_eq_false_iff, decide_eq_false_iff_not]
      omega
    rw [stringBody_hex4 (by omega) plain, Char.ofNat_toNat]
  · -- any other character stands for itself, and its lead byte starts no escape
    obtain ⟨x, tail, encoded, lead⟩ := encodeChar_cons c
    have read : decodeHead? (x :: (tail ++ more)) = some (c, more) := by
      rw [← List.cons_append, ← encoded, decodeHead?_encodeChar]
    have notControl : ¬c.toNat < 0x20 := by
      simp only [Bool.or_eq_true, decide_eq_true_eq, beq_iff_eq, not_or] at special
      exact special.1.1.1.1.1
    have differs : ∀ d : Char, c ≠ d → x.toNat = c.toNat → x.toNat ≠ d.toNat := by
      intro d other same equal
      exact other (by rw [← Char.ofNat_toNat c, ← Char.ofNat_toNat d, ← same, equal])
    have written : encode [c] ++ more = x :: (tail ++ more) := by
      rw [encode_singleton, encoded, List.cons_append]
    rw [written]
    apply stringBody_char _ _ _ read
    · rw [UInt8.le_iff_toNat_le]
      rcases lead with same | high
      · simp only [UInt8.reduceToNat]
        omega
      · simp only [UInt8.reduceToNat]
        omega
    · rw [ne_eq, UInt8.ext_iff]
      rcases lead with same | high
      · exact differs '"' quote same
      · simp only [UInt8.reduceToNat]
        omega
    · rw [ne_eq, UInt8.ext_iff]
      rcases lead with same | high
      · exact differs '\\' backslash same
      · simp only [UInt8.reduceToNat]
        omega

theorem stringBody_escapePiece (p : Piece) (acc more : Bytes) :
    stringBody acc (encode (escapePiece p) ++ more) = stringBody (acc ++ encodeChar p.rune) more := by
  cases p with
  | char c => exact stringBody_escapeChar c acc more
  | stray x =>
    -- a stray byte is written as the escape of U+FFFD
    have written : escapePiece (.stray x) = '\\' :: 'u' :: hex4 0xFFFD := rfl
    rw [written, stringBody_hex4 (by decide) (by decide)]
    rfl

/-! ## Whole literals -/

/-- The body of a literal written for some pieces reads as their characters, up to its closing
quote. -/
theorem stringBody_pieces (ps : List Piece) (acc rest : Bytes) :
    stringBody acc (encode (ps.flatMap escapePiece) ++ 0x22 :: rest) =
      some (acc ++ encode (ps.map Piece.rune), rest) := by
  induction ps generalizing acc with
  | nil =>
    rw [List.flatMap_nil, encode_nil, List.nil_append, stringBody_quote, List.map_nil, encode_nil,
      List.append_nil]
  | cons p ps inductionHypothesis =>
    rw [List.flatMap_cons, encode_append, List.append_assoc, stringBody_escapePiece,
      inductionHypothesis, List.map_cons, encode_cons, List.append_assoc]

/-- A quoted byte string reads back as its bytes with every byte outside a well-formed sequence
replaced by U+FFFD, and leaves what follows it. -/
theorem readString?_quote (b rest : Bytes) :
    readString? (Bytes.ofString (quote b) ++ rest) = some (sanitize b, rest) := by
  have written : Bytes.ofString (quote b) ++ rest =
      0x22 :: (encode ((pieces b).flatMap escapePiece) ++ 0x22 :: rest) := by
    rw [quote, Bytes.ofString_ofList, encode_append, encode_cons, encode_singleton,
      List.append_assoc, List.append_assoc]
    rfl
  rw [written, readString?, stringBody_pieces, List.nil_append]
  rfl

end MarketData.Json
