import Mathlib
import MarketData.Text.Utf8

/-!
# Reading back what was encoded

A Lean string stands for the UTF-8 bytes of its characters (`Bytes.ofString_eq_encode`), and the
decoder of this library reads the encoding of a character back as that character
(`Utf8.decodeHead?_encodeChar`). So valid text is its own set of pieces, and sanitizing it
changes nothing (`Utf8.sanitize_encode`): only bytes outside any well-formed sequence are ever
replaced.
-/

namespace MarketData

namespace Bytes

theorem toList_loop (a : ByteArray) (i : ℕ) (r : List UInt8) :
    ByteArray.toList.loop a i r = r.reverse ++ a.data.toList.drop i := by
  fun_induction ByteArray.toList.loop a i r with
  | case1 i r inside inductionHypothesis =>
    have within : i < a.data.toList.length := by simpa using inside
    rw [inductionHypothesis, List.drop_eq_getElem_cons within, List.reverse_cons, List.append_assoc]
    simp [ByteArray.get!, inside]
  | case2 i r outside =>
    have past : a.data.toList.length ≤ i := by simpa using outside
    rw [List.drop_of_length_le past, List.append_nil]

theorem ofString_eq (s : String) : ofString s = s.toByteArray.data.toList := by
  rw [ofString, String.toUTF8_eq_toByteArray, ByteArray.toList, toList_loop]
  rfl

@[simp] theorem ofString_append (s t : String) : ofString (s ++ t) = ofString s ++ ofString t := by
  simp only [ofString_eq, String.toByteArray_append, ByteArray.toList_data_append]

theorem ofString_ofList (cs : List Char) : ofString (String.ofList cs) = Utf8.encode cs := by
  rw [ofString_eq, String.toByteArray_ofList, List.utf8Encode, List.toList_data_toByteArray]
  rfl

theorem ofString_eq_encode (s : String) : ofString s = Utf8.encode s.toList := by
  rw [← ofString_ofList, String.ofList_toList]

end Bytes

namespace Utf8

theorem encode_singleton (c : Char) : encode [c] = encodeChar c := by
  simp [encode]

theorem encode_append (cs ds : List Char) : encode (cs ++ ds) = encode cs ++ encode ds :=
  List.flatMap_append

theorem encodeChar_of_lt {c : Char} (ascii : c.toNat < 128) : encodeChar c = [c.toNat.toUInt8] := by
  unfold encodeChar String.utf8EncodeChar
  dsimp only
  rw [if_pos (show c.val.toNat ≤ 127 by exact Nat.le_of_lt_succ ascii)]
  rfl

theorem encode_of_ascii {cs : List Char} (ascii : ∀ c ∈ cs, c.toNat < 0x80) :
    encode cs = cs.map fun c => c.toNat.toUInt8 := by
  induction cs with
  | nil => rfl
  | cons c cs inductionHypothesis =>
    rw [encode_cons, List.map_cons, encodeChar_of_lt (ascii c (.head _)),
      inductionHypothesis fun d member => ascii d (.tail _ member)]
    rfl

theorem toNat_ofNat_of_lt {n : ℕ} (small : n < 256) : (UInt8.ofNat n).toNat = n := by
  simp [Nat.mod_eq_of_lt small]

theorem decodeHead?_encodeChar (c : Char) (rest : Bytes) :
    decodeHead? (encodeChar c ++ rest) = some (c, rest) := by
  have valid := c.valid
  have back : Char.ofNat c.val.toNat = c := Char.ofNat_toNat c
  unfold UInt32.isValidChar Nat.isValidChar at valid
  unfold encodeChar String.utf8EncodeChar
  generalize c.val.toNat = v at valid back
  subst back
  dsimp only
  -- one case per length of the encoding; in each, the lead byte selects that length again
  split
  · rename_i one
    have a := toNat_ofNat_of_lt (n := v) (by omega)
    simp only [List.cons_append, List.nil_append, decodeHead?, UInt8.lt_iff_toNat_lt, a]
    simp [show v < 128 by omega]
  split
  · rename_i one two
    have a := toNat_ofNat_of_lt (n := v / 64 % 32 + 192) (by omega)
    have b := toNat_ofNat_of_lt (n := v % 64 + 128) (by omega)
    simp only [List.cons_append, List.nil_append, decodeHead?, UInt8.lt_iff_toNat_lt,
      UInt8.le_iff_toNat_le, a, b, isTail, tailBits, UInt8.reduceToNat]
    simp (disch := omega) only [if_neg, if_pos, Bool.and_eq_true, decide_eq_true_eq]
    have same : (v / 64 % 32 + 192) % 32 * 64 + (v % 64 + 128) % 64 = v := by omega
    rw [same]
  split
  · rename_i one two three
    have a := toNat_ofNat_of_lt (n := v / 4096 % 16 + 224) (by omega)
    have b := toNat_ofNat_of_lt (n := v / 64 % 64 + 128) (by omega)
    have c := toNat_ofNat_of_lt (n := v % 64 + 128) (by omega)
    simp only [List.cons_append, List.nil_append, decodeHead?, UInt8.lt_iff_toNat_lt,
      UInt8.le_iff_toNat_le, UInt8.ext_iff, a, b, c, isTail, tailBits, UInt8.reduceToNat]
    simp (disch := omega) only [if_neg, if_pos, Bool.and_eq_true, decide_eq_true_eq]
    -- the second byte is bounded more tightly after 0xE0, and after 0xED to exclude surrogates
    rw [if_pos (by split_ifs <;> simp only [UInt8.reduceToNat] <;> omega)]
    have same : (v / 4096 % 16 + 224) % 16 * 4096 + (v / 64 % 64 + 128) % 64 * 64 +
        (v % 64 + 128) % 64 = v := by omega
    rw [same]
  · rename_i one two three
    have a := toNat_ofNat_of_lt (n := v / 262144 % 8 + 240) (by omega)
    have b := toNat_ofNat_of_lt (n := v / 4096 % 64 + 128) (by omega)
    have c := toNat_ofNat_of_lt (n := v / 64 % 64 + 128) (by omega)
    have d := toNat_ofNat_of_lt (n := v % 64 + 128) (by omega)
    simp only [List.cons_append, List.nil_append, decodeHead?, UInt8.lt_iff_toNat_lt,
      UInt8.le_iff_toNat_le, UInt8.ext_iff, a, b, c, d, isTail, tailBits, UInt8.reduceToNat]
    simp (disch := omega) only [if_neg, if_pos, Bool.and_eq_true, decide_eq_true_eq]
    -- the second byte is bounded more tightly after 0xF0, and after 0xF4 to stay below 0x110000
    rw [if_pos (by split_ifs <;> simp only [UInt8.reduceToNat] <;> omega)]
    have same : (v / 262144 % 8 + 240) % 8 * 262144 + (v / 4096 % 64 + 128) % 64 * 4096 +
        (v / 64 % 64 + 128) % 64 * 64 + (v % 64 + 128) % 64 = v := by omega
    rw [same]

theorem encodeChar_cons (c : Char) :
    ∃ x more, encodeChar c = x :: more ∧ (x.toNat = c.toNat ∨ 0xC0 ≤ x.toNat) := by
  unfold encodeChar String.utf8EncodeChar
  dsimp only
  have valid := c.valid
  unfold UInt32.isValidChar Nat.isValidChar at valid
  rw [Char.toNat]
  split
  · exact ⟨_, _, rfl, .inl (toNat_ofNat_of_lt (by omega))⟩
  split
  · exact ⟨_, _, rfl, .inr (by rw [toNat_ofNat_of_lt (by omega)]; omega)⟩
  split
  · exact ⟨_, _, rfl, .inr (by rw [toNat_ofNat_of_lt (by omega)]; omega)⟩
  · exact ⟨_, _, rfl, .inr (by rw [toNat_ofNat_of_lt (by omega)]; omega)⟩

theorem pieces_encodeChar_append (c : Char) (rest : Bytes) :
    pieces (encodeChar c ++ rest) = .char c :: pieces rest := by
  rw [pieces]
  split
  · rename_i c' rest' decoded
    rw [decodeHead?_encodeChar] at decoded
    cases decoded
    rfl
  · rename_i undecoded
    rw [decodeHead?_encodeChar] at undecoded
    cases undecoded

theorem pieces_encode (cs : List Char) : pieces (encode cs) = cs.map .char := by
  induction cs with
  | nil => rw [encode_nil, pieces_nil, List.map_nil]
  | cons c cs inductionHypothesis =>
    rw [encode_cons, pieces_encodeChar_append, inductionHypothesis, List.map_cons]

theorem runes_encode (cs : List Char) : runes (encode cs) = cs := by
  rw [runes, pieces_encode, List.map_map]
  exact List.map_id cs

theorem sanitize_encode (cs : List Char) : sanitize (encode cs) = encode cs := by
  rw [sanitize, runes_encode]

theorem sanitize_ofString (s : String) : sanitize (Bytes.ofString s) = Bytes.ofString s := by
  rw [Bytes.ofString_eq_encode, sanitize_encode]

end Utf8

end MarketData
