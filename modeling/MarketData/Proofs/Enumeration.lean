import MarketData.Proofs.Json.Scalars
import MarketData.Proofs.Number.Numerals

/-!
# Names and ordinals

A registry writes an ordinal as its name, or as `unknown(N)` when it has none, and reads a text by
trimming its blanks, lowercasing it and looking the result up among the lowercase names; a text
of the form `unknown(d)`, for decimal digits `d`, reads as the ordinal `d` spells when that fits
in 32 bits. In JSON an ordinal with a name is that name as a string literal, and one without is
its bare number.

Reading takes back what writing gives, for every 32-bit ordinal, as long as the names are
`Readable`: none has blanks around it, no two are equal up to case, and none lowercases to
`unknown(d)`. Then a registry is a `TextCodec` (`textCodec_of_readable`): besides the round
trips, reading any text gives the ordinal of the name it spells up to case and blanks, or the
value of the `unknown(d)` it spells, and fails with `rangeExceeded` for a `d` past 32 bits and
with `unknownEnumerant` otherwise. The four enumerations of the data model are such registries
(`Enumeration.readable`).
-/

namespace MarketData

open Json Utf8

/-! ## Text that trimming and lowercasing leave as it is -/

section Plain

theorem toLowerChar_of_not_upper {c : Char} (ascii : c.toNat < 0x80) (notUpper : c.toNat < 65 ∨ 90 < c.toNat) :
    toLowerChar c = c := by
  have ends : ('A'.val.toNat, 'Z'.val.toNat) = (65, 90) := rfl
  have value : c.toNat = c.val.toNat := rfl
  simp only [Prod.mk.injEq] at ends
  rw [toLowerChar, if_pos ascii]
  unfold Char.toLower
  rw [dif_neg]
  simp only [ge_iff_le, UInt32.le_iff_toNat_le, not_and, not_le]
  omega

theorem toLower_encode_of {cs : List Char} (kept : ∀ c ∈ cs, c.toNat < 0x80 ∧ (c.toNat < 65 ∨ 90 < c.toNat)) :
    Bytes.toLower (Utf8.encode cs) = Utf8.encode cs := by
  have same : ∀ c ∈ cs, toLowerChar c = c := fun c member =>
    toLowerChar_of_not_upper (kept c member).1 (kept c member).2
  rw [Bytes.toLower, runes_encode]
  exact congrArg Utf8.encode ((List.map_congr_left same).trans (List.map_id cs))

theorem spells_toString (n : Nat) : Numeral.Spells 10 (Bytes.ofString (toString n)) n := by
  obtain ⟨c, cs, spelled, _⟩ := toDigits_cons n
  apply Numeral.readDigits?_eq_some_iff.1
  rw [ofString_toString_nat_eq, readDigits?_digits (toDigits_digits n) (by rw [spelled]; exact List.cons_ne_nil _ _),
    Nat.ofDigitChars_ten_toDigits]

end Plain

namespace Json

theorem stringValue?_quote (b : Bytes) : stringValue? (Bytes.ofString (quote b)) = some (sanitize b) := by
  have whole := readString?_quote b []
  rw [List.append_nil] at whole
  rw [stringValue?, skipSpace_solid (solid_quote b), whole]
  rfl

end Json

/-! ## Registries -/

namespace Registry

/-- The text `unknown(d)`. -/
def marker (digits : Bytes) : Bytes := Bytes.ofString "unknown(" ++ digits ++ [0x29]

/-- What reading a registry's names back needs: no name has blanks around it, no two are equal
up to case, and none lowercases to the `unknown(d)` of decimal digits. -/
structure Readable (r : Registry) : Prop where
  /-- Trimming leaves every name as it is. -/
  trimmed : ∀ n ∈ r.names, (Bytes.ofString n).trimBlank = Bytes.ofString n
  /-- The lowercase forms of the names are pairwise distinct. -/
  distinct : (r.names.map fun n => (Bytes.ofString n).toLower).Nodup
  /-- No name reads as the rendering of an unknown ordinal. -/
  unmarked : ∀ n ∈ r.names, ∀ d v, Numeral.Spells 10 d v → (Bytes.ofString n).toLower ≠ marker d

variable {r : Registry}

/-! ### Looking a key up -/

theorem indexOf?_name (distinct : (r.names.map fun n => (Bytes.ofString n).toLower).Nodup) {i : Nat}
    (within : i < r.names.length) : r.indexOf? (Bytes.ofString r.names[i]).toLower = some i := by
  unfold indexOf?
  rw [List.findIdx?_eq_some_iff_getElem]
  refine ⟨within, by simp, fun j before same => ?_⟩
  have apart := List.pairwise_iff_getElem.1 distinct j i (by rw [List.length_map]; omega)
    (by rw [List.length_map]; exact within) before
  simp only [List.getElem_map] at apart
  exact apart (beq_iff_eq.1 same)

theorem indexOf?_eq_none {key : Bytes} (missing : ∀ n ∈ r.names, (Bytes.ofString n).toLower ≠ key) :
    r.indexOf? key = none := by
  unfold indexOf?
  rw [List.findIdx?_eq_none_iff]
  intro n member
  simpa using missing n member

/-! ### Ordinals from wire numbers -/

theorem fromWire_of_lt {raw : Nat} (small : raw < 2 ^ 32) : r.fromWire raw = .ok raw.toUInt32 := by
  unfold fromWire ordinalOfWire
  rw [if_pos (show raw < Nat.pow 2 32 from small)]

theorem fromWire_of_le {raw : Nat} (large : 2 ^ 32 ≤ raw) : FailsWith (r.fromWire raw) .rangeExceeded := by
  unfold fromWire ordinalOfWire
  rw [if_neg (show ¬raw < Nat.pow 2 32 from Nat.not_lt_of_le large)]
  exact ⟨_, rfl, rfl⟩

/-! ### The rendering of unknown ordinals -/

theorem ofString_unknown : Bytes.ofString "unknown(" = [0x75, 0x6E, 0x6B, 0x6E, 0x6F, 0x77, 0x6E, 0x28] := by
  rw [Bytes.ofString_eq_encode]
  decide

theorem marker_isPrefixOf (d : Bytes) : (Bytes.ofString "unknown(").isPrefixOf (marker d) = true := by
  rw [marker, List.append_assoc, List.isPrefixOf_iff_prefix]
  exact List.prefix_append _ _

theorem getLast?_marker (d : Bytes) : (marker d).getLast? = some 0x29 := by
  rw [marker, List.getLast?_append]
  rfl

theorem dropLast_drop_marker (d : Bytes) : ((marker d).drop (Bytes.ofString "unknown(").length).dropLast = d := by
  rw [marker, List.append_assoc, List.drop_left]
  simp

theorem eq_marker {key : Bytes} (opens : (Bytes.ofString "unknown(").isPrefixOf key = true)
    (closes : key.getLast? = some 0x29) : key = marker ((key.drop (Bytes.ofString "unknown(").length).dropLast) := by
  rw [List.isPrefixOf_iff_prefix] at opens
  obtain ⟨tail, rfl⟩ := opens
  have tailCloses : tail.getLast? = some 0x29 := by
    cases tail with
    | nil => simp [ofString_unknown] at closes
    | cons x rest => rwa [List.getLast?_append_of_ne_nil _ (List.cons_ne_nil _ _)] at closes
  rw [marker, List.drop_left, List.append_assoc]
  exact congrArg (Bytes.ofString "unknown(" ++ ·) (List.dropLast_append_getLast? 0x29 tailCloses).symm

theorem ofString_render_of_le {v : UInt32} (past : r.names.length ≤ v.toNat) :
    Bytes.ofString (r.render v) = marker (Bytes.ofString (toString v.toNat)) := by
  have closing : Bytes.ofString ")" = [0x29] := by
    rw [Bytes.ofString_eq_encode]
    decide
  unfold render name?
  rw [List.getElem?_eq_none past, Option.getD_none,
    show s!"unknown({v.toNat})" = "unknown(" ++ toString v.toNat ++ ")" from rfl, Bytes.ofString_append,
    Bytes.ofString_append, closing, marker]

theorem marker_plain (n : Nat) :
    (marker (Bytes.ofString (toString n))).trimBlank.toLower = marker (Bytes.ofString (toString n)) := by
  have digits := toDigits_digits n
  have spelled : marker (Bytes.ofString (toString n)) =
      Utf8.encode (['u', 'n', 'k', 'n', 'o', 'w', 'n', '('] ++ Nat.toDigits 10 n ++ [')']) := by
    rw [marker, ofString_toString_nat_eq, Bytes.ofString_eq_encode, encode_append, encode_append]
    rfl
  have plain : ∀ c ∈ ['u', 'n', 'k', 'n', 'o', 'w', 'n', '('] ++ Nat.toDigits 10 n ++ [')'],
      0x21 ≤ c.toNat ∧ c.toNat < 0x7F ∧ (c.toNat < 65 ∨ 90 < c.toNat) := by
    intro c member
    simp only [List.mem_append, List.mem_singleton] at member
    rcases member with (word | digit) | rfl
    · revert c
      simp
    · have := digit_bounds (digits c digit)
      omega
    · simp
  rw [spelled, trimBlank_encode fun c member => isBlank_of_graphic (plain c member).1 (plain c member).2.1,
    toLower_encode_of fun c member => ⟨by have := plain c member; omega, (plain c member).2.2⟩]

/-! ### Reading a text -/

theorem parse_of_indexOf? {text : Bytes} {i : Nat} (found : r.indexOf? text.trimBlank.toLower = some i) :
    r.parse text = .ok i.toUInt32 := by
  unfold parse
  dsimp only
  rw [found]

theorem parse_of_marker {text d : Bytes} {v : Nat} (missing : r.indexOf? text.trimBlank.toLower = none)
    (marked : text.trimBlank.toLower = marker d) (spelled : Numeral.Spells 10 d v) (small : v < 2 ^ 64) :
    r.parse text = r.fromWire v := by
  have read : Numeral.readWord? d = some v.toUInt64 := Numeral.readWord?_eq_some_iff.2 ⟨v, spelled, small, rfl⟩
  have shaped : ((Bytes.ofString "unknown(").isPrefixOf (marker d) && (marker d).getLast? == some 0x29) = true := by
    rw [marker_isPrefixOf, getLast?_marker]
    rfl
  unfold parse
  dsimp only
  rw [missing]
  dsimp only
  rw [marked, if_pos shaped, dropLast_drop_marker, read]
  dsimp only
  rw [UInt64.toNat_ofNat_of_lt' (by unfold UInt64.size; omega)]

theorem parse_of_unmarked {text : Bytes} (missing : r.indexOf? text.trimBlank.toLower = none)
    (unmarked : ∀ d v, Numeral.Spells 10 d v → text.trimBlank.toLower = marker d → 2 ^ 64 ≤ v) :
    FailsWith (r.parse text) .unknownEnumerant := by
  unfold parse
  dsimp only
  rw [missing]
  dsimp only
  split
  · rename_i shaped
    simp only [Bool.and_eq_true, beq_iff_eq] at shaped
    have marked := eq_marker shaped.1 shaped.2
    split
    · -- the digits read as a word, so they spell a value below 2^64
      rename_i raw read
      obtain ⟨v, spelled, small, -⟩ := Numeral.readWord?_eq_some_iff.1 read
      exact absurd (unmarked _ v spelled marked) (by omega)
    · exact failsWith_coded _ _
  · exact failsWith_coded _ _

theorem parse_of_name (readable : r.Readable) {text : Bytes} {i : Nat} (within : i < r.names.length)
    (same : (Bytes.ofString r.names[i]).toLower = text.trimBlank.toLower) : r.parse text = .ok i.toUInt32 :=
  parse_of_indexOf? (same ▸ indexOf?_name readable.distinct within)

theorem indexOf?_marker (readable : r.Readable) {d : Bytes} {v : Nat} (spelled : Numeral.Spells 10 d v) :
    r.indexOf? (marker d) = none :=
  indexOf?_eq_none fun n member => readable.unmarked n member d v spelled

theorem parse_of_spelled (readable : r.Readable) {text d : Bytes} {v : Nat}
    (marked : text.trimBlank.toLower = marker d) (spelled : Numeral.Spells 10 d v) (small : v < 2 ^ 64) :
    r.parse text = r.fromWire v :=
  parse_of_marker (by rw [marked]; exact indexOf?_marker readable spelled) marked spelled small

/-! ### Writing an ordinal and reading it back -/

theorem render_of_lt {v : UInt32} (within : v.toNat < r.names.length) : r.render v = r.names[v.toNat] := by
  unfold render name?
  rw [List.getElem?_eq_getElem within]
  rfl

theorem parse_render (readable : r.Readable) (v : UInt32) : r.parse (Bytes.ofString (r.render v)) = .ok v := by
  by_cases within : v.toNat < r.names.length
  · rw [render_of_lt within, parse_of_name readable within (by rw [readable.trimmed _ (List.getElem_mem within)])]
    simp only [UInt32.ofNat_toNat, Nat.toUInt32_eq]
  · have spelled := spells_toString v.toNat
    have plain := marker_plain v.toNat
    have small := v.toNat_lt
    rw [ofString_render_of_le (Nat.le_of_not_lt within), parse_of_spelled readable plain spelled (by omega),
      fromWire_of_lt small]
    simp only [UInt32.ofNat_toNat, Nat.toUInt32_eq]

/-! ### JSON -/

theorem jsonText_of_name {v : UInt32} {n : String} (named : r.name? v = some n) :
    r.jsonText v = quote (Bytes.ofString n) := by
  unfold jsonText
  rw [named]

theorem jsonText_of_unnamed {v : UInt32} (unnamed : r.name? v = none) : r.jsonText v = toString v.toNat := by
  unfold jsonText
  rw [unnamed]

theorem readJson_quote (b : Bytes) : r.readJson (Bytes.ofString (quote b)) = r.parse (sanitize b) := by
  have opens : ((Bytes.ofString (quote b)).trimBlank.head? == some 0x22) = true := by
    rw [trimBlank_quote, ofString_quote]
    rfl
  unfold readJson
  dsimp only
  rw [opens, if_pos rfl, stringValue?_quote]

theorem readJson_toString {n : Nat} (small : n < 2 ^ 32) :
    r.readJson (Bytes.ofString (toString n)) = .ok n.toUInt32 := by
  have digits := toDigits_digits n
  obtain ⟨x, body, opens, digit⟩ := ofString_toString_nat n
  have solid : (Bytes.ofString (toString n)).trimBlank = Bytes.ofString (toString n) := by
    rw [ofString_toString_nat_eq]
    exact trimBlank_encode fun c member => isBlank_of_alphanum (isAlphanum_of_isDigit (digits c member))
  have unquoted : ((Bytes.ofString (toString n)).head? == some 0x22) = false := by
    have notQuote : x ≠ 0x22 := by
      rintro rfl
      exact absurd digit (by decide)
    rw [opens]
    simp [notQuote]
  have read : Numeral.readWord? (Bytes.ofString (toString n)) = some n.toUInt64 :=
    Numeral.readWord?_eq_some_iff.2 ⟨n, spells_toString n, by omega, rfl⟩
  unfold readJson
  dsimp only
  rw [solid, unquoted, if_neg Bool.false_ne_true, read]
  dsimp only
  rw [UInt64.toNat_ofNat_of_lt' (by unfold UInt64.size; omega), fromWire_of_lt small]

/-- Every ordinal reads back from its JSON text: its name as a string literal, or its bare
number. -/
theorem readJson_jsonText (readable : r.Readable) (v : UInt32) :
    r.readJson (Bytes.ofString (r.jsonText v)) = .ok v := by
  cases named : r.name? v with
  | some n =>
    obtain ⟨within, rfl⟩ := List.getElem?_eq_some_iff.1 named
    rw [jsonText_of_name named, readJson_quote, sanitize_ofString, ← render_of_lt within, parse_render readable]
  | none =>
    rw [jsonText_of_unnamed named, readJson_toString v.toNat_lt]
    simp only [UInt32.ofNat_toNat, Nat.toUInt32_eq]

/-! ### The codec -/

/-- A registry is a lossless text codec for every 32-bit ordinal, and reads every text as
follows: a name up to case and blanks as its ordinal, `unknown(d)` as the value of `d`, failing
with `rangeExceeded` for a value past 32 bits and with `unknownEnumerant` for every other text. -/
structure TextCodec (r : Registry) : Prop where
  /-- Every ordinal reads back from its rendering. -/
  parse_render : ∀ v, r.parse (Bytes.ofString (r.render v)) = .ok v
  /-- Every ordinal reads back from its JSON text. -/
  readJson_jsonText : ∀ v, r.readJson (Bytes.ofString (r.jsonText v)) = .ok v
  /-- Every ordinal reads back from its rendering as a JSON string. -/
  readJson_quote_render : ∀ v, r.readJson (Bytes.ofString (quote (Bytes.ofString (r.render v)))) = .ok v
  /-- A name, up to case and blanks, reads as its ordinal. -/
  parse_name : ∀ text (i : Nat) (within : i < r.names.length),
    (Bytes.ofString r.names[i]).toLower = text.trimBlank.toLower → r.parse text = .ok i.toUInt32
  /-- `unknown(d)`, up to case and blanks, reads as the value of `d` when it fits in 32 bits. -/
  parse_marker : ∀ text d v, Numeral.Spells 10 d v → text.trimBlank.toLower = marker d → v < 2 ^ 32 →
    r.parse text = .ok v.toUInt32
  /-- `unknown(d)` for a 64-bit value past 32 bits is out of range. -/
  parse_marker_range : ∀ text d v, Numeral.Spells 10 d v → text.trimBlank.toLower = marker d →
    2 ^ 32 ≤ v → v < 2 ^ 64 → FailsWith (r.parse text) .rangeExceeded
  /-- Every other text names no member. -/
  parse_other : ∀ text, (∀ n ∈ r.names, (Bytes.ofString n).toLower ≠ text.trimBlank.toLower) →
    (∀ d v, Numeral.Spells 10 d v → text.trimBlank.toLower = marker d → 2 ^ 64 ≤ v) →
    FailsWith (r.parse text) .unknownEnumerant
  /-- A wire number within 32 bits is that ordinal. -/
  fromWire_small : ∀ raw, raw < 2 ^ 32 → r.fromWire raw = .ok raw.toUInt32
  /-- A wire number past 32 bits is out of range. -/
  fromWire_large : ∀ raw, 2 ^ 32 ≤ raw → FailsWith (r.fromWire raw) .rangeExceeded

theorem textCodec_of_readable (r : Registry) (readable : r.Readable) : r.TextCodec where
  parse_render := parse_render readable
  readJson_jsonText := readJson_jsonText readable
  readJson_quote_render v := by
    rw [readJson_quote, sanitize_ofString, parse_render readable]
  parse_name _ _ within same := parse_of_name readable within same
  parse_marker text d v spelled marked small := by
    rw [parse_of_spelled readable marked spelled (by omega), fromWire_of_lt small]
  parse_marker_range text d v spelled marked large small := by
    rw [parse_of_spelled readable marked spelled small]
    exact fromWire_of_le large
  parse_other _ missing unmarked := parse_of_unmarked (indexOf?_eq_none missing) unmarked
  fromWire_small _ small := fromWire_of_lt small
  fromWire_large _ large := fromWire_of_le large

end Registry

/-! ## The enumerations of the data model -/

namespace Enumeration

theorem names_isLower (e : Enumeration) : ∀ n ∈ e.names, ∀ c ∈ n.toList, c.isLower = true := by
  cases e <;> simp [Enumeration.names]

theorem names_nodup (e : Enumeration) : (e.names.map String.toList).Nodup := by
  cases e <;> decide

theorem lower_bounds {c : Char} (lower : c.isLower = true) : 97 ≤ c.toNat ∧ c.toNat ≤ 122 := by
  simpa [Char.isLower, UInt32.le_iff_toNat_le, ← Char.toNat_val] using lower

theorem name_plain {e : Enumeration} {n : String} (member : n ∈ e.names) :
    (Bytes.ofString n).trimBlank = Bytes.ofString n ∧ (Bytes.ofString n).toLower = Bytes.ofString n := by
  have bounds := fun c within => lower_bounds (names_isLower e n member c within)
  rw [Bytes.ofString_eq_encode]
  exact ⟨trimBlank_encode fun c within => isBlank_of_graphic (by have := bounds c within; omega)
      (by have := bounds c within; omega),
    toLower_encode_of fun c within => by have := bounds c within; omega⟩

theorem ofString_injective {a b : String} (same : Bytes.ofString a = Bytes.ofString b) : a = b := by
  rw [Bytes.ofString_eq_encode, Bytes.ofString_eq_encode] at same
  have pieces := congrArg pieces same
  rw [pieces_encode, pieces_encode] at pieces
  exact String.toList_inj.1 (List.map_injective_iff.2 (fun _ _ same => Piece.char.inj same) pieces)

theorem readable (e : Enumeration) : e.registry.Readable where
  trimmed _ member := (name_plain member).1
  distinct := by
    show (e.names.map fun n => (Bytes.ofString n).toLower).Nodup
    rw [List.map_congr_left fun n member => (name_plain member).2]
    exact List.Nodup.map_on (fun a _ b _ same => ofString_injective same) (List.Nodup.of_map _ (names_nodup e))
  unmarked n member d v _ marked := by
    -- a name has only letters, and a marker has a parenthesis
    have bounds := fun c within => lower_bounds (names_isLower e n member c within)
    have paren : (0x28 : UInt8) ∈ Bytes.ofString n := by
      rw [← (name_plain member).2, marked, Registry.marker, Registry.ofString_unknown]
      simp
    rw [Bytes.ofString_eq_encode, encode_of_ascii fun c within => by have := bounds c within; omega] at paren
    obtain ⟨c, within, byte⟩ := List.mem_map.1 paren
    have letter := bounds c within
    have fits : (UInt8.ofNat c.toNat).toNat = c.toNat := toNat_ofNat_of_lt (by omega)
    have value : (UInt8.ofNat c.toNat).toNat = 0x28 := congrArg UInt8.toNat byte
    omega

/-- The chains are a text codec. -/
theorem chain_textCodec : Enumeration.chain.registry.TextCodec :=
  Registry.textCodec_of_readable _ (readable .chain)

end Enumeration

/-! ## Members read from JSON -/

namespace Json

variable {e : Enumeration}

theorem readJson_name {o : Ordinal e} {n : String} (named : o.name? = some n) :
    e.readJson (Bytes.ofString (quote (Bytes.ofString n))) = .ok o := by
  have read := Registry.readJson_jsonText (Enumeration.readable e) o.val
  rw [Registry.jsonText_of_name named] at read
  unfold Enumeration.readJson
  rw [read]
  rfl

theorem readJson_number (o : Ordinal e) : e.readJson (Bytes.ofString (toString o.val.toNat)) = .ok o := by
  unfold Enumeration.readJson
  rw [Registry.readJson_toString o.val.toNat_lt]
  simp only [UInt32.ofNat_toNat, Nat.toUInt32_eq]
  rfl

theorem reads_ordinal_name {o : Ordinal e} {n : String} (named : o.name? = some n) (old : Ordinal e) :
    Reads (readValue (.ordinal e) old) (Bytes.ofString (quote (Bytes.ofString n))) o := by
  intro rest _
  show (readRaw e.readJson).run _ = _
  rw [readRaw, run_bind_of_run (run_expect (valueToken?_quote _ rest)), readJson_name named]
  rfl

theorem reads_ordinal_number (old o : Ordinal e) :
    Reads (readValue (.ordinal e) old) (Bytes.ofString (toString o.val.toNat)) o := by
  intro rest after
  have token : valueToken? (Bytes.ofString (toString o.val.toNat) ++ rest) =
      some (Bytes.ofString (toString o.val.toNat), rest) := by
    have number := valueToken?_number (NumberText.wellFormed_ofInt o.val.toNat) after
    rwa [NumberText.encode_chars_ofInt] at number
  show (readRaw e.readJson).run _ = _
  rw [readRaw, run_bind_of_run (run_expect token), readJson_number]
  rfl

end Json

end MarketData
