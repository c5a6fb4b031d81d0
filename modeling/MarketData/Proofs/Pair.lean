import MarketData.Proofs.Text.UpperCase
import MarketData.Proofs.Json.Scalars
import MarketData.Proofs.Migration.Failures

/-!
# Reading pairs

An identifier reads as a pair exactly when one separator (`/`, `-` or `_`) stands in it between
two legs that are not blank; the pair is those legs trimmed and upper-cased, and every other
identifier fails as an invalid pair (`Pair.parse_eq_ok_iff`). The legs of a pair read this way
are normal forms: trimming and upper-casing them again changes nothing
(`Pair.normalLeg_normalLeg`), and they hold no separator, since trimming keeps bytes of the leg
and upper-casing makes no separator. So the pair read back from its legs joined by any separator
is the same pair (`Pair.parse_format`).

A stable symbol, once upper-cased and stripped of separators, ends in a stable quote after whole
upper-case characters; its pair's base is those characters, and rendering the pair gives a
symbol that maps onto the same pair (`Pair.ofStableSymbol?_render_eq`).

The main statement is `Pair.parse_exact_normal_forms`.
-/

namespace MarketData

namespace Bytes

theorem not_mem_of_mem_splitOnByte {sep : UInt8} {b part : Bytes} (member : part ∈ b.splitOnByte sep) :
    sep ∉ part := by
  unfold splitOnByte at member
  induction b generalizing part with
  | nil =>
    rw [List.splitOn_nil, List.mem_singleton] at member
    subst member
    exact List.not_mem_nil
  | cons x b inductionHypothesis =>
    rw [List.splitOn_cons_eq_if_modifyHead] at member
    split at member
    · rcases List.mem_cons.1 member with rfl | later
      · exact List.not_mem_nil
      · exact inductionHypothesis later
    · rename_i different
      -- the byte joins the first piece of the rest
      obtain ⟨first, rest, parts⟩ := List.exists_cons_of_ne_nil (List.splitOn_ne_nil sep b)
      rw [parts, List.modifyHead_cons, List.mem_cons] at member
      rcases member with rfl | later
      · intro inside
        rcases List.mem_cons.1 inside with same | inFirst
        · rw [same, beq_self_eq_true] at different
          exact different rfl
        · exact inductionHypothesis (parts ▸ List.mem_cons_self) inFirst
      · exact inductionHypothesis (parts ▸ List.mem_cons_of_mem _ later)

theorem splitOnByte_eq_pair_iff {sep : UInt8} {b left right : Bytes} :
    b.splitOnByte sep = [left, right] ↔ b = left ++ sep :: right ∧ sep ∉ left ∧ sep ∉ right := by
  constructor
  · intro split
    have joined : [sep].intercalate (b.splitOn sep) = b := List.intercalate_splitOn sep
    unfold splitOnByte at split
    rw [split] at joined
    refine ⟨?_, not_mem_of_mem_splitOnByte (by unfold splitOnByte; rw [split]; exact List.mem_cons_self),
      not_mem_of_mem_splitOnByte (by unfold splitOnByte; rw [split]; exact List.mem_cons_of_mem _ List.mem_cons_self)⟩
    rw [← joined, List.intercalate_cons_cons, List.intercalate_singleton, List.append_assoc, List.singleton_append]
  · rintro ⟨rfl, notLeft, notRight⟩
    unfold splitOnByte
    rw [List.splitOn_append_cons_self_of_not_mem notLeft, List.splitOn_eq_singleton notRight]

end Bytes

namespace Pair

open Utf8

/-- Whether a byte separates the legs of an identifier: `/`, `-` or `_`. -/
def isSeparator (b : UInt8) : Bool := b == 0x2F || b == 0x2D || b == 0x5F

/-- A byte as `parse` reads it: every separator becomes `/`. -/
def toSlash (b : UInt8) : UInt8 := if b == 0x2D || b == 0x5F then 0x2F else b

theorem isSeparator_iff {b : UInt8} : isSeparator b = true ↔ b = 0x2F ∨ b = 0x2D ∨ b = 0x5F := by
  simp only [isSeparator, Bool.or_eq_true, beq_iff_eq, or_assoc]

theorem toSlash_eq_slash_iff {b : UInt8} : toSlash b = 0x2F ↔ isSeparator b = true := by
  unfold toSlash
  split
  · rename_i separator
    simp only [Bool.or_eq_true, beq_iff_eq] at separator
    rcases separator with rfl | rfl <;> decide
  · rename_i other
    simp only [Bool.or_eq_true, beq_iff_eq, not_or] at other
    simp only [isSeparator_iff, other, or_false]

theorem toSlash_of_not_separator {b : UInt8} (clean : isSeparator b = false) : toSlash b = b := by
  simp only [isSeparator, Bool.or_eq_false_iff] at clean
  unfold toSlash
  rw [if_neg (by rw [clean.1.2, clean.2]; decide)]

theorem map_toSlash {l : Bytes} (clean : ∀ b ∈ l, isSeparator b = false) : l.map toSlash = l :=
  calc l.map toSlash = l.map id := List.map_congr_left fun b member => toSlash_of_not_separator (clean b member)
    _ = l := List.map_id l

theorem normalLeg_eq_nil_iff {leg : Bytes} : normalLeg leg = [] ↔ leg.trimBlank = [] :=
  Bytes.toUpper_eq_nil_iff

/-- `parse` succeeds on exactly two pieces around `/` once separators are read as `/`, with legs
that stay non-empty once normalized. -/
theorem parse_eq_ok_iff_split {id : Bytes} {p : Pair} :
    parse id = .ok p ↔ ∃ base quote, Bytes.splitOnByte 0x2F (id.map toSlash) = [base, quote] ∧
      normalLeg base ≠ [] ∧ normalLeg quote ≠ [] ∧ p = make base quote := by
  unfold parse
  dsimp only
  split
  · rename_i base quote split
    have reads : Bytes.splitOnByte 0x2F (id.map toSlash) = [base, quote] := split
    constructor
    · intro parsed
      split at parsed
      · cases parsed
      · rename_i full
        cases parsed
        simp only [make, Bool.or_eq_true, List.isEmpty_iff, not_or] at full
        exact ⟨base, quote, reads, full.1, full.2, rfl⟩
    · rintro ⟨base', quote', reads', baseFull, quoteFull, rfl⟩
      rw [reads, List.cons.injEq, List.cons.injEq] at reads'
      obtain ⟨rfl, rfl, -⟩ := reads'
      rw [if_neg (by simp only [make, Bool.or_eq_true, List.isEmpty_iff, not_or]; exact ⟨baseFull, quoteFull⟩)]
  · rename_i noPair
    constructor
    · intro parsed
      cases parsed
    · rintro ⟨base, quote, reads, -⟩
      exact (noPair base quote reads).elim

theorem slash_not_mem {l : Bytes} (clean : ∀ b ∈ l, isSeparator b = false) : (0x2F : UInt8) ∉ l := by
  intro member
  have slash := clean _ member
  cases slash

theorem clean_of_map_toSlash {leg piece : Bytes} (read : leg.map toSlash = piece) (noSlash : (0x2F : UInt8) ∉ piece) :
    ∀ b ∈ leg, isSeparator b = false := by
  intro b member
  rw [← Bool.not_eq_true, ← toSlash_eq_slash_iff]
  intro slash
  rw [← read] at noSlash
  exact noSlash (slash ▸ List.mem_map_of_mem member)

/-- An identifier reads as a pair exactly when one separator stands in it, between legs that are
not blank: the pair of those legs, trimmed and uppercased. -/
theorem parse_eq_ok_iff {id : Bytes} {p : Pair} :
    parse id = .ok p ↔ ∃ (left : Bytes) (sep : UInt8) (right : Bytes), id = left ++ sep :: right ∧ isSeparator sep = true ∧
      (∀ b ∈ left, isSeparator b = false) ∧ (∀ b ∈ right, isSeparator b = false) ∧
      left.trimBlank ≠ [] ∧ right.trimBlank ≠ [] ∧ p = make left right := by
  rw [parse_eq_ok_iff_split]
  constructor
  · rintro ⟨base, quote, reads, baseFull, quoteFull, rfl⟩
    obtain ⟨normalized, notBase, notQuote⟩ := Bytes.splitOnByte_eq_pair_iff.1 reads
    obtain ⟨left, rest, rfl, leftSlash, restSlash⟩ := List.map_eq_append_iff.1 normalized
    obtain ⟨sep, right, rfl, sepSlash, rightSlash⟩ := List.map_eq_cons_iff.1 restSlash
    have leftClean := clean_of_map_toSlash leftSlash notBase
    have rightClean := clean_of_map_toSlash rightSlash notQuote
    rw [map_toSlash leftClean] at leftSlash
    rw [map_toSlash rightClean] at rightSlash
    subst leftSlash rightSlash
    exact ⟨left, sep, right, rfl, toSlash_eq_slash_iff.1 sepSlash, leftClean, rightClean,
      mt normalLeg_eq_nil_iff.2 baseFull, mt normalLeg_eq_nil_iff.2 quoteFull, rfl⟩
  · rintro ⟨left, sep, right, rfl, separator, leftClean, rightClean, leftFull, rightFull, rfl⟩
    refine ⟨left, right, ?_, mt normalLeg_eq_nil_iff.1 leftFull, mt normalLeg_eq_nil_iff.1 rightFull, rfl⟩
    rw [Bytes.splitOnByte_eq_pair_iff, List.map_append, List.map_cons, map_toSlash leftClean, map_toSlash rightClean,
      toSlash_eq_slash_iff.2 separator]
    exact ⟨rfl, slash_not_mem leftClean, slash_not_mem rightClean⟩

/-! ## Normal legs -/

theorem isBlank_rune (p : Piece) : isBlank p.rune = p.isBlank := by
  cases p with
  | char c => rfl
  | stray x => rfl

theorem normalLeg_eq (leg : Bytes) :
    normalLeg leg = encode ((trimPieces (pieces leg)).map fun p => toUpperChar p.rune) := by
  rw [normalLeg, Bytes.toUpper, runes, Bytes.pieces_trimBlank, List.map_map]
  rfl

theorem trimBlank_normalLeg (leg : Bytes) : (normalLeg leg).trimBlank = normalLeg leg := by
  -- the kept pieces start and end with one that is not blank, and upper-casing makes no blank
  have solid : ∀ p : Piece, p.isBlank = false → isBlank (toUpperChar p.rune) = false :=
    fun p kept => isBlank_toUpperChar (by rw [isBlank_rune]; exact kept)
  rw [normalLeg_eq]
  apply Json.trimBlank_encode_ends
  · intro c first
    obtain ⟨p, kept, rfl⟩ := Option.map_eq_some_iff.1 (by rwa [List.head?_map] at first)
    exact solid p (trimPieces_head? _ p kept)
  · intro c last
    obtain ⟨p, kept, rfl⟩ := Option.map_eq_some_iff.1 (by rwa [List.getLast?_map] at last)
    exact solid p (trimPieces_getLast? _ p kept)

theorem normalLeg_normalLeg (leg : Bytes) : normalLeg (normalLeg leg) = normalLeg leg := by
  rw [normalLeg, trimBlank_normalLeg, normalLeg, Bytes.toUpper_toUpper]

/-- A separator in a normal leg was in the leg: trimming keeps bytes of the leg, and upper-casing
makes no separator. -/
theorem mem_of_mem_normalLeg {leg : Bytes} {b : UInt8} (separator : isSeparator b = true)
    (member : b ∈ normalLeg leg) : b ∈ leg := by
  obtain ⟨ascii, loud⟩ : b.toNat < 0x80 ∧ CaseRun.quiet b.toNat = false := by
    rcases isSeparator_iff.1 separator with rfl | rfl | rfl <;> decide
  rw [normalLeg, Bytes.toUpper, mem_encode_of_ascii ascii] at member
  obtain ⟨upper, mapped, same⟩ := member
  obtain ⟨c, read, rfl⟩ := List.mem_map.1 mapped
  rw [← same] at loud
  rw [toUpperChar_eq_of_loud loud] at same
  exact (Bytes.trimBlank_infix leg).subset (mem_of_mem_runes read same ascii)

theorem normalLeg_clean {leg : Bytes} (clean : ∀ b ∈ leg, isSeparator b = false) :
    ∀ b ∈ normalLeg leg, isSeparator b = false := by
  intro b member
  cases kind : isSeparator b
  · rfl
  · rw [← kind, clean b (mem_of_mem_normalLeg kind member)]

theorem normalLeg_full {leg : Bytes} (full : leg.trimBlank ≠ []) : (normalLeg leg).trimBlank ≠ [] := by
  rw [trimBlank_normalLeg]
  exact mt normalLeg_eq_nil_iff.1 full

theorem parse_format {id : Bytes} {p : Pair} {sep : UInt8} (parsed : parse id = .ok p)
    (separator : isSeparator sep = true) : parse (p.format [sep]) = .ok p := by
  obtain ⟨left, -, right, -, -, leftClean, rightClean, leftFull, rightFull, rfl⟩ := parse_eq_ok_iff.1 parsed
  refine parse_eq_ok_iff.2 ⟨normalLeg left, sep, normalLeg right, ?_, separator, normalLeg_clean leftClean,
    normalLeg_clean rightClean, normalLeg_full leftFull, normalLeg_full rightFull, ?_⟩
  · rw [format, List.append_assoc, List.singleton_append]
    rfl
  · rw [make, make, normalLeg_normalLeg, normalLeg_normalLeg]

/-! ## Stable symbols -/

/-- Whether a byte stays in a stable symbol once separators are dropped. -/
def keepsByte (b : UInt8) : Bool := !(b == 0x2D || b == 0x5F || b == 0x2F)

theorem stripSuffix?_eq_some_iff {suf b pre : Bytes} : Bytes.stripSuffix? suf b = some pre ↔ b = pre ++ suf := by
  unfold Bytes.stripSuffix?
  split
  · rename_i ends
    obtain ⟨front, rfl⟩ := List.isSuffixOf_iff_suffix.1 ends
    rw [List.length_append, Nat.add_sub_cancel, List.take_left', Option.some.injEq]
    · exact ⟨fun same => by rw [same], fun same => List.append_cancel_right same⟩
    · rfl
  · rename_i differs
    constructor
    · intro stripped
      cases stripped
    intro spelled
    exact absurd (List.isSuffixOf_iff_suffix.2 (spelled ▸ List.suffix_append pre suf)) differs

theorem stableQuotes_boundary {stable : String} (member : stable ∈ stableQuotes) :
    ∀ a ∈ (Bytes.ofString stable).head?, isTail a = false := by
  simp only [stableQuotes, List.mem_cons, List.not_mem_nil, or_false] at member
  set_option maxRecDepth 4000 in
  rcases member with rfl | rfl | rfl | rfl <;> rw [Bytes.ofString_eq_encode] <;> decide


theorem keepsByte_of_high {b : UInt8} (high : 0x80 ≤ b.toNat) : keepsByte b = true := by
  simp only [keepsByte, Bool.not_eq_eq_eq_not, Bool.not_true, Bool.or_eq_false_iff, beq_eq_false_iff_ne, ne_eq]
  refine ⟨⟨?_, ?_⟩, ?_⟩ <;> rintro rfl <;> exact absurd high (by decide)

theorem filter_toUpper (sym : Bytes) :
    sym.toUpper.filter keepsByte =
      encode (((runes sym).map toUpperChar).filter fun c => (encodeChar c).all keepsByte) :=
  filter_encode (fun _ high => keepsByte_of_high high) _

/-- A stable symbol maps onto the USD quote and a base of whole upper-case characters, none of
them a separator. -/
theorem ofStableSymbol?_eq_some {sym : Bytes} {p : Pair} (found : ofStableSymbol? sym = some p) :
    p.quote = Bytes.ofString "USD" ∧ p.base ≠ [] ∧
      ∃ cs : List Char, p.base = encode cs ∧ ∀ c ∈ cs, toUpperChar c = c ∧ (encodeChar c).all keepsByte = true := by
  unfold ofStableSymbol? at found
  obtain ⟨stable, member, hit⟩ := List.exists_of_findSome?_eq_some found
  split at hit
  · rename_i base stripped
    split at hit
    · cases hit
    · rename_i full
      cases hit
      refine ⟨rfl, fun empty => full (List.isEmpty_iff.2 empty), ?_⟩
      rw [stripSuffix?_eq_some_iff] at stripped
      -- the stable quote is ASCII, so the bytes before it are whole characters of the normalized symbol
      have spelled := (filter_toUpper sym).symm.trans stripped
      have split := congrArg pieces spelled
      rw [pieces_encode, pieces_append _ _ (stableQuotes_boundary member), Bytes.ofString_eq_encode,
        pieces_encode] at split
      obtain ⟨front, back, whole, kept, -⟩ := List.map_eq_append_iff.1 split
      refine ⟨front, by rw [← joinPieces_pieces base, ← kept, joinPieces_map_char], fun c inFront => ?_⟩
      have inWhole : c ∈ ((runes sym).map toUpperChar).filter fun c => (encodeChar c).all keepsByte := by
        rw [whole]
        exact List.mem_append_left _ inFront
      obtain ⟨upper, keeps⟩ := List.mem_filter.1 inWhole
      obtain ⟨original, -, rfl⟩ := List.mem_map.1 upper
      exact ⟨toUpperChar_toUpperChar original, keeps⟩
  · cases hit

theorem stripSuffix?_of_getLast? {suf b : Bytes} (full : suf ≠ []) (differ : b.getLast? ≠ suf.getLast?) :
    Bytes.stripSuffix? suf b = none := by
  cases stripped : Bytes.stripSuffix? suf b with
  | none => rfl
  | some pre =>
    rw [stripSuffix?_eq_some_iff] at stripped
    rw [stripped, List.getLast?_append_of_ne_nil _ full] at differ
    exact absurd rfl differ

theorem ofStableSymbol?_render {cs : List Char} (full : cs ≠ [])
    (upper : ∀ c ∈ cs, toUpperChar c = c ∧ (encodeChar c).all keepsByte = true) :
    ofStableSymbol? (render ⟨encode cs, Bytes.ofString "USD"⟩) = some ⟨encode cs, Bytes.ofString "USD"⟩ := by
  have usd : Bytes.ofString "USD" = encode ['U', 'S', 'D'] := by
    rw [Bytes.ofString_eq_encode]
    rfl
  have slash : encode ['/', 'U', 'S', 'D'] = [0x2F] ++ encode ['U', 'S', 'D'] := by
    rw [encode_cons, encodeChar_of_lt (by decide)]
    rfl
  have spelled : render ⟨encode cs, Bytes.ofString "USD"⟩ = encode (cs ++ ['/', 'U', 'S', 'D']) := by
    rw [render, format, usd, encode_append, slash, List.append_assoc]
  have fixed : ∀ c ∈ cs ++ ['/', 'U', 'S', 'D'], toUpperChar c = c := by
    intro c member
    rcases List.mem_append.1 member with inText | inSuffix
    · exact (upper c inText).1
    · simp only [List.mem_cons, List.not_mem_nil, or_false] at inSuffix
      rcases inSuffix with rfl | rfl | rfl | rfl <;> decide
  -- the separator before the quote is dropped, the quote and the base are kept
  have normalized : (render ⟨encode cs, Bytes.ofString "USD"⟩).toUpper.filter keepsByte =
      encode cs ++ Bytes.ofString "USD" := by
    rw [spelled, Bytes.toUpper_encode, List.map_congr_left fixed, List.map_id',
      filter_encode (fun _ high => keepsByte_of_high high), List.filter_append,
      List.filter_eq_self.2 fun c member => (upper c member).2, encode_append, usd]
    rfl
  have base : (encode cs).isEmpty = false := List.isEmpty_eq_false_iff.2 (mt encode_eq_nil_iff.1 full)
  -- the normalized rendering ends in `D`, so it does not end in `USDT` or `USDC`
  have ends : (encode cs ++ Bytes.ofString "USD").getLast? = some 0x44 := by
    rw [List.getLast?_append_of_ne_nil _ (by rw [usd]; decide), Bytes.ofString_eq_encode]
    decide
  have usdt : Bytes.stripSuffix? (Bytes.ofString "USDT") (encode cs ++ Bytes.ofString "USD") = none :=
    stripSuffix?_of_getLast? (by rw [Bytes.ofString_eq_encode]; decide) (by rw [ends, Bytes.ofString_eq_encode]; decide)
  have usdc : Bytes.stripSuffix? (Bytes.ofString "USDC") (encode cs ++ Bytes.ofString "USD") = none :=
    stripSuffix?_of_getLast? (by rw [Bytes.ofString_eq_encode]; decide) (by rw [ends, Bytes.ofString_eq_encode]; decide)
  unfold keepsByte at normalized
  unfold ofStableSymbol?
  dsimp only
  rw [normalized]
  simp only [stableQuotes, List.findSome?_cons, usdt, usdc, stripSuffix?_eq_some_iff.2 rfl, base,
    Bool.false_eq_true, if_false]

/-- A stable symbol's pair is quoted in USD, has a base, and renders as a stable symbol of the
same pair. -/
theorem ofStableSymbol?_render_eq {sym : Bytes} {p : Pair} (found : ofStableSymbol? sym = some p) :
    p.quote = Bytes.ofString "USD" ∧ p.base ≠ [] ∧ ofStableSymbol? p.render = some p := by
  obtain ⟨usd, full, cs, spelled, upper⟩ := ofStableSymbol?_eq_some found
  refine ⟨usd, full, ?_⟩
  cases p with
  | mk base quote =>
    dsimp only at usd spelled full
    subst usd spelled
    exact ofStableSymbol?_render (fun empty => full (by rw [empty]; rfl)) upper

/-- Reading pairs: an identifier reads exactly when one separator stands between two legs that
are not blank, as those legs trimmed and upper-cased, and fails as an invalid pair otherwise; a
pair read joined again by any separator reads as itself; and the pair of a stable symbol is
quoted in USD, has a base, and is the pair of its own rendering. -/
theorem parse_exact_normal_forms :
    (∀ (id : Bytes) (p : Pair), parse id = .ok p ↔
      ∃ (left : Bytes) (sep : UInt8) (right : Bytes), id = left ++ sep :: right ∧ isSeparator sep = true ∧
        (∀ b ∈ left, isSeparator b = false) ∧ (∀ b ∈ right, isSeparator b = false) ∧
        left.trimBlank ≠ [] ∧ right.trimBlank ≠ [] ∧ p = ⟨left.trimBlank.toUpper, right.trimBlank.toUpper⟩) ∧
    (∀ (id : Bytes) (f : Failure), parse id = .error f → f.code? = some .invalidPair) ∧
    (∀ (id : Bytes) (p : Pair) (sep : UInt8), parse id = .ok p → isSeparator sep = true →
      parse (p.format [sep]) = .ok p) ∧
    (∀ (sym : Bytes) (p : Pair), ofStableSymbol? sym = some p →
      p.quote = Bytes.ofString "USD" ∧ p.base ≠ [] ∧ ofStableSymbol? p.render = some p) :=
  ⟨fun _ _ => parse_eq_ok_iff, fun _ _ refused => parse_eq_error refused,
    fun _ _ _ parsed separator => parse_format parsed separator, fun _ _ found => ofStableSymbol?_render_eq found⟩

end Pair

end MarketData
