import MarketData.Proofs.Text.Utf8
import MarketData.Text.Blank

/-!
# Framing bytes into pieces

The decoder takes a well-formed sequence off the front of the bytes only when those bytes are
the encoding of the character it reads (`Utf8.eq_encodeChar_of_decodeHead?`), so the pieces of
any bytes spell them back (`Utf8.joinPieces_pieces`). Two consequences carry the text operations:

* bytes cut where no continuation byte follows are read part by part (`Utf8.pieces_append`), and
* a run of consecutive pieces of some bytes is read again as the same pieces
  (`Utf8.pieces_infix`), so trimming keeps exactly the pieces between the outermost non-blank
  ones (`Bytes.pieces_trimBlank`) and the bytes it keeps are a run of the input
  (`Bytes.trimBlank_infix`).
-/

namespace MarketData.Utf8

theorem toNat_ofNat_of_valid {n : Nat} (valid : n < 0xD800 ∨ (0xDFFF < n ∧ n < 0x110000)) :
    (Char.ofNat n).toNat = n := by
  rw [Char.ofNat, dif_pos valid]
  rfl

theorem ofNat_eq_of_toNat {k : Nat} {a : UInt8} (same : k = a.toNat) : UInt8.ofNat k = a := by
  rw [same, UInt8.ofNat_toNat]

theorem isTail_iff {b : UInt8} : isTail b = true ↔ 0x80 ≤ b.toNat ∧ b.toNat ≤ 0xBF := by
  simp only [isTail, Bool.and_eq_true, decide_eq_true_eq, UInt8.le_iff_toNat_le, UInt8.reduceToNat]

/-! ## Decoding reads encodings

Each lead byte announces the length of its sequence; the bytes of a sequence the decoder accepts
are the encoding of the character it reads. -/

theorem spell_one {a : UInt8} (lead : a.toNat < 0x80) : [a] = encodeChar (Char.ofNat a.toNat) := by
  have value := toNat_ofNat_of_valid (n := a.toNat) (by omega)
  unfold encodeChar String.utf8EncodeChar
  simp only [Char.toNat_val] at value ⊢
  rw [value, if_pos (by omega), ofNat_eq_of_toNat rfl]

theorem spell_two {a x : UInt8} (lead : 0xC2 ≤ a.toNat ∧ a.toNat ≤ 0xDF) (tail : isTail x = true) :
    [a, x] = encodeChar (Char.ofNat (a.toNat % 32 * 64 + tailBits x)) := by
  rw [isTail_iff] at tail
  have value := toNat_ofNat_of_valid (n := a.toNat % 32 * 64 + x.toNat % 64) (by omega)
  unfold encodeChar String.utf8EncodeChar tailBits
  simp only [Char.toNat_val] at value ⊢
  rw [value, if_neg (by omega), if_pos (by omega), ofNat_eq_of_toNat (a := a) (by omega),
    ofNat_eq_of_toNat (a := x) (by omega)]

/-- The second byte of a three- or four-byte sequence is a continuation byte, bounded more
tightly after the lead bytes `first` and `last`. -/
theorem second_byte {a x first last lo hi : UInt8} (tight : 0x80 ≤ lo.toNat ∧ hi.toNat ≤ 0xBF)
    (low : (if a = first then lo else 0x80 : UInt8) ≤ x) (high : x ≤ (if a = last then hi else 0xBF : UInt8)) :
    (a.toNat = first.toNat → lo.toNat ≤ x.toNat) ∧ (a.toNat = last.toNat → x.toNat ≤ hi.toNat) ∧
      0x80 ≤ x.toNat ∧ x.toNat ≤ 0xBF := by
  rw [UInt8.le_iff_toNat_le] at low high
  split_ifs at low high <;> simp only [UInt8.ext_iff, UInt8.reduceToNat] at * <;> omega

theorem spell_three {a x y : UInt8} (lead : 0xE0 ≤ a.toNat ∧ a.toNat ≤ 0xEF)
    (low : (if a = 0xE0 then 0xA0 else 0x80 : UInt8) ≤ x) (high : x ≤ (if a = 0xED then 0x9F else 0xBF : UInt8))
    (tail : isTail y = true) :
    [a, x, y] = encodeChar (Char.ofNat (a.toNat % 16 * 4096 + tailBits x * 64 + tailBits y)) := by
  -- after 0xE0 the second byte rules out overlong forms, after 0xED it rules out surrogates
  have second := second_byte (by decide) low high
  simp only [UInt8.reduceToNat] at second
  rw [isTail_iff] at tail
  have value := toNat_ofNat_of_valid (n := a.toNat % 16 * 4096 + x.toNat % 64 * 64 + y.toNat % 64) (by omega)
  unfold encodeChar String.utf8EncodeChar tailBits
  simp only [Char.toNat_val] at value ⊢
  rw [value, if_neg (by omega), if_neg (by omega), if_pos (by omega), ofNat_eq_of_toNat (a := a) (by omega),
    ofNat_eq_of_toNat (a := x) (by omega), ofNat_eq_of_toNat (a := y) (by omega)]

theorem spell_four {a x y z : UInt8} (lead : 0xF0 ≤ a.toNat ∧ a.toNat ≤ 0xF4)
    (low : (if a = 0xF0 then 0x90 else 0x80 : UInt8) ≤ x) (high : x ≤ (if a = 0xF4 then 0x8F else 0xBF : UInt8))
    (tails : isTail y = true ∧ isTail z = true) :
    [a, x, y, z] =
      encodeChar (Char.ofNat (a.toNat % 8 * 262144 + tailBits x * 4096 + tailBits y * 64 + tailBits z)) := by
  -- after 0xF0 the second byte rules out overlong forms, after 0xF4 it stays below 0x110000
  have second := second_byte (by decide) low high
  simp only [UInt8.reduceToNat] at second
  rw [isTail_iff, isTail_iff] at tails
  have value := toNat_ofNat_of_valid
    (n := a.toNat % 8 * 262144 + x.toNat % 64 * 4096 + y.toNat % 64 * 64 + z.toNat % 64) (by omega)
  unfold encodeChar String.utf8EncodeChar tailBits
  simp only [Char.toNat_val] at value ⊢
  rw [value, if_neg (by omega), if_neg (by omega), if_neg (by omega), ofNat_eq_of_toNat (a := a) (by omega),
    ofNat_eq_of_toNat (a := x) (by omega), ofNat_eq_of_toNat (a := y) (by omega),
    ofNat_eq_of_toNat (a := z) (by omega)]

theorem eq_encodeChar_of_decodeHead? {b : Bytes} {c : Char} {rest : Bytes}
    (decoded : decodeHead? b = some (c, rest)) : b = encodeChar c ++ rest := by
  cases b with
  | nil => simp [decodeHead?] at decoded
  | cons a more =>
    have lead := a.toNat_lt
    simp only [decodeHead?] at decoded
    -- one case per length of the sequence the lead byte announces
    split at decoded
    · rename_i one
      cases decoded
      rw [← spell_one (UInt8.lt_iff_toNat_lt.1 one)]
      rfl
    split at decoded
    · rename_i one two
      rcases more with _ | ⟨x, more⟩
      · cases decoded
      simp only [Option.ite_none_right_eq_some, Option.some.injEq, Prod.mk.injEq] at decoded
      obtain ⟨tail, rfl, rfl⟩ := decoded
      simp only [Bool.and_eq_true, decide_eq_true_eq, UInt8.le_iff_toNat_le, UInt8.reduceToNat] at two
      rw [← spell_two two tail]
      rfl
    split at decoded
    · rename_i one two three
      rcases more with _ | ⟨x, _ | ⟨y, more⟩⟩
      · cases decoded
      · cases decoded
      simp only [Option.ite_none_right_eq_some, Option.some.injEq, Prod.mk.injEq, Bool.and_eq_true,
        decide_eq_true_eq] at decoded
      obtain ⟨⟨⟨low, high⟩, tail⟩, rfl, rfl⟩ := decoded
      simp only [Bool.and_eq_true, decide_eq_true_eq, UInt8.le_iff_toNat_le, UInt8.reduceToNat] at three
      rw [← spell_three three low high tail]
      rfl
    split at decoded
    · rename_i one two three four
      rcases more with _ | ⟨x, _ | ⟨y, _ | ⟨z, more⟩⟩⟩
      · cases decoded
      · cases decoded
      · cases decoded
      simp only [Option.ite_none_right_eq_some, Option.some.injEq, Prod.mk.injEq, Bool.and_eq_true,
        decide_eq_true_eq] at decoded
      obtain ⟨⟨⟨⟨low, high⟩, tail⟩, tail'⟩, rfl, rfl⟩ := decoded
      simp only [Bool.and_eq_true, decide_eq_true_eq, UInt8.le_iff_toNat_le, UInt8.reduceToNat] at four
      rw [← spell_four four low high ⟨tail, tail'⟩]
      rfl
    · cases decoded

theorem decodeHead?_append {l m : Bytes} {c : Char} {rest : Bytes} (decoded : decodeHead? l = some (c, rest)) :
    decodeHead? (l ++ m) = some (c, rest ++ m) := by
  rw [eq_encodeChar_of_decodeHead? decoded, List.append_assoc, decodeHead?_encodeChar]

theorem encodeChar_tail (c : Char) : ∀ b ∈ (encodeChar c).tail, isTail b = true := by
  have valid := c.valid
  unfold UInt32.isValidChar Nat.isValidChar at valid
  unfold encodeChar String.utf8EncodeChar
  generalize c.val.toNat = v at valid
  dsimp only
  -- one case per length of the encoding; every byte after the first carries six bits
  split
  · simp
  split
  · simp [isTail_iff]
    omega
  split
  · simp [isTail_iff]
    omega
  · simp [isTail_iff]
    omega

/-- A character read from the front of `l ++ m` lies within `l` when `m` does not go on with a
continuation byte. -/
theorem decodeHead?_of_append {l m : Bytes} {c : Char} {rest : Bytes} (started : l ≠ [])
    (boundary : ∀ a ∈ m.head?, isTail a = false) (decoded : decodeHead? (l ++ m) = some (c, rest)) :
    ∃ rest', decodeHead? l = some (c, rest') := by
  rcases List.append_eq_append_iff.1 (eq_encodeChar_of_decodeHead? decoded) with ⟨more, spelled, after⟩ | ⟨more, spelled, -⟩
  · cases more with
    | nil =>
      rw [List.append_nil] at spelled
      exact ⟨[], by rw [← spelled, ← List.append_nil (encodeChar c), decodeHead?_encodeChar]⟩
    | cons x more =>
      -- the encoding would go on into `m` with a byte that is not a continuation byte
      obtain ⟨first, front, rfl⟩ := List.exists_cons_of_ne_nil started
      have inside : x ∈ (encodeChar c).tail := by
        rw [spelled, List.cons_append, List.tail_cons]
        exact List.mem_append_right _ List.mem_cons_self
      have stops := boundary x (by rw [after, List.cons_append, List.head?_cons]; rfl)
      rw [encodeChar_tail c x inside] at stops
      cases stops
  · exact ⟨more, by rw [spelled, decodeHead?_encodeChar]⟩

theorem decodeHead?_of_append_eq_none {l m : Bytes} (undecoded : decodeHead? (l ++ m) = none) :
    decodeHead? l = none := by
  cases reading : decodeHead? l with
  | none => rfl
  | some read =>
    rw [decodeHead?_append reading] at undecoded
    cases undecoded

/-- A byte that starts no character starts none when more bytes follow, as long as they do not
go on with a continuation byte. -/
theorem decodeHead?_append_eq_none {l m : Bytes} (started : l ≠ []) (boundary : ∀ a ∈ m.head?, isTail a = false)
    (undecoded : decodeHead? l = none) : decodeHead? (l ++ m) = none := by
  cases reading : decodeHead? (l ++ m) with
  | none => rfl
  | some read =>
    obtain ⟨_, decoded⟩ := decodeHead?_of_append started boundary reading
    rw [undecoded] at decoded
    cases decoded

/-! ## Pieces -/

theorem pieces_of_decodeHead? {b : Bytes} {c : Char} {rest : Bytes} (decoded : decodeHead? b = some (c, rest)) :
    pieces b = .char c :: pieces rest := by
  rw [eq_encodeChar_of_decodeHead? decoded, pieces_encodeChar_append]

theorem pieces_stray {x : UInt8} {rest : Bytes} (undecoded : decodeHead? (x :: rest) = none) :
    pieces (x :: rest) = .stray x :: pieces rest := by
  rw [pieces]
  split
  · rename_i decoded
    rw [undecoded] at decoded
    cases decoded
  · rfl

theorem joinPieces_nil : joinPieces [] = [] := rfl

theorem joinPieces_cons (p : Piece) (ps : List Piece) : joinPieces (p :: ps) = p.bytes ++ joinPieces ps :=
  List.flatMap_cons

theorem joinPieces_append (ps qs : List Piece) : joinPieces (ps ++ qs) = joinPieces ps ++ joinPieces qs :=
  List.flatMap_append

theorem joinPieces_pieces (b : Bytes) : joinPieces (pieces b) = b := by
  fun_induction pieces b with
  | case1 b c rest decoded _ inductionHypothesis =>
    rw [joinPieces_cons, inductionHypothesis, eq_encodeChar_of_decodeHead? decoded]
    rfl
  | case2 => rfl
  | case3 x rest _ inductionHypothesis =>
    rw [joinPieces_cons, inductionHypothesis]
    rfl

/-- Bytes split where the second part does not go on with a continuation byte are read part by
part. -/
theorem pieces_append (x y : Bytes) (boundary : ∀ a ∈ y.head?, isTail a = false) :
    pieces (x ++ y) = pieces x ++ pieces y := by
  fun_induction pieces x with
  | case1 x c rest decoded _ inductionHypothesis =>
    rw [pieces_of_decodeHead? (decodeHead?_append decoded), inductionHypothesis, List.cons_append]
  | case2 => rfl
  | case3 x rest undecoded inductionHypothesis =>
    have stillUndecoded := decodeHead?_append_eq_none (List.cons_ne_nil x rest) boundary undecoded
    rw [List.cons_append] at stillUndecoded
    rw [List.cons_append, pieces_stray stillUndecoded, inductionHypothesis, List.cons_append]

theorem pieces_prefix {b : Bytes} {front back : List Piece} (split : pieces b = front ++ back) :
    pieces (joinPieces front) = front := by
  fun_induction pieces b generalizing front with
  | case1 b c rest decoded _ inductionHypothesis =>
    cases front with
    | nil => rw [joinPieces_nil, pieces_nil]
    | cons p front =>
      rw [List.cons_append, List.cons.injEq] at split
      obtain ⟨rfl, split⟩ := split
      rw [joinPieces_cons, Piece.bytes, pieces_encodeChar_append, inductionHypothesis split]
  | case2 =>
    obtain ⟨rfl, -⟩ := List.append_eq_nil_iff.1 split.symm
    rw [joinPieces_nil, pieces_nil]
  | case3 x rest undecoded inductionHypothesis =>
    cases front with
    | nil => rw [joinPieces_nil, pieces_nil]
    | cons p front =>
      rw [List.cons_append, List.cons.injEq] at split
      obtain ⟨rfl, split⟩ := split
      -- the byte starts no character before the bytes end, so none before the prefix ends
      have stillUndecoded : decodeHead? (x :: joinPieces front) = none := by
        apply decodeHead?_of_append_eq_none (m := joinPieces back)
        rw [List.cons_append, ← joinPieces_append, ← split, joinPieces_pieces]
        exact undecoded
      rw [joinPieces_cons, Piece.bytes, List.singleton_append, pieces_stray stillUndecoded,
        inductionHypothesis split]

theorem pieces_suffix {b : Bytes} {front back : List Piece} (split : pieces b = front ++ back) :
    pieces (joinPieces back) = back := by
  fun_induction pieces b generalizing front with
  | case1 b c rest decoded _ inductionHypothesis =>
    cases front with
    | nil => rw [← List.nil_append back, ← split, ← pieces_of_decodeHead? decoded, joinPieces_pieces]
    | cons p front =>
      rw [List.cons_append, List.cons.injEq] at split
      exact inductionHypothesis split.2
  | case2 =>
    obtain ⟨-, rfl⟩ := List.append_eq_nil_iff.1 split.symm
    rw [joinPieces_nil, pieces_nil]
  | case3 x rest undecoded inductionHypothesis =>
    cases front with
    | nil => rw [← List.nil_append back, ← split, ← pieces_stray undecoded, joinPieces_pieces]
    | cons p front =>
      rw [List.cons_append, List.cons.injEq] at split
      exact inductionHypothesis split.2

theorem pieces_infix {b : Bytes} {front middle back : List Piece} (split : pieces b = front ++ middle ++ back) :
    pieces (joinPieces middle) = middle :=
  pieces_prefix (pieces_suffix (by rw [split, List.append_assoc]))

theorem pieces_eq_nil_iff {b : Bytes} : pieces b = [] ↔ b = [] := by
  constructor
  · intro empty
    rw [← joinPieces_pieces b, empty, joinPieces_nil]
  · rintro rfl
    exact pieces_nil

theorem joinPieces_map_char (cs : List Char) : joinPieces (cs.map .char) = encode cs := by
  rw [joinPieces, List.flatMap_map]
  rfl

theorem encode_eq_nil_iff {cs : List Char} : encode cs = [] ↔ cs = [] := by
  constructor
  · intro empty
    rw [← runes_encode cs, empty, runes_nil]
  · rintro rfl
    rfl

theorem encodeChar_high {c : Char} (high : 0x80 ≤ c.toNat) : ∀ b ∈ encodeChar c, 0x80 ≤ b.toNat := by
  obtain ⟨x, more, spelled, lead⟩ := encodeChar_cons c
  have tail := encodeChar_tail c
  rw [spelled, List.tail_cons] at tail
  intro b member
  rw [spelled, List.mem_cons] at member
  rcases member with rfl | later
  · omega
  · exact (isTail_iff.1 (tail b later)).1

theorem mem_encode_of_ascii {a : UInt8} (ascii : a.toNat < 0x80) {cs : List Char} :
    a ∈ encode cs ↔ ∃ c ∈ cs, c.toNat = a.toNat := by
  rw [encode, List.mem_flatMap]
  refine exists_congr fun c => and_congr_right fun _ => ?_
  by_cases low : c.toNat < 0x80
  · rw [encodeChar_of_lt low, List.mem_singleton, UInt8.ext_iff, Nat.toUInt8_eq, toNat_ofNat_of_lt (by omega)]
    omega
  · constructor
    · intro member
      have := encodeChar_high (by omega) a member
      omega
    · intro same
      omega

theorem filter_encode {keep : UInt8 → Bool} (high : ∀ b : UInt8, 0x80 ≤ b.toNat → keep b = true) (cs : List Char) :
    (encode cs).filter keep = encode (cs.filter fun c => (encodeChar c).all keep) := by
  induction cs with
  | nil => rfl
  | cons c cs inductionHypothesis =>
    rw [encode_cons, List.filter_append, inductionHypothesis, List.filter_cons]
    by_cases low : c.toNat < 0x80
    · rw [encodeChar_of_lt low, List.all_cons, List.all_nil, Bool.and_true, List.filter_cons, List.filter_nil]
      split
      · rw [encode_cons, encodeChar_of_lt low]
      · rfl
    · have kept : (encodeChar c).all keep = true :=
        List.all_eq_true.2 fun b member => high b (encodeChar_high (by omega) b member)
      rw [List.filter_eq_self.2 fun b member => high b (encodeChar_high (by omega) b member), if_pos kept,
        encode_cons]

theorem mem_of_mem_runes {b : Bytes} {c : Char} {a : UInt8} (member : c ∈ runes b) (same : c.toNat = a.toNat)
    (ascii : a.toNat < 0x80) : a ∈ b := by
  rw [runes, List.mem_map] at member
  obtain ⟨p, read, rfl⟩ := member
  cases p with
  | stray x =>
    have wide : replacement.toNat = 0xFFFD := rfl
    rw [Piece.rune, wide] at same
    omega
  | char c =>
    rw [← joinPieces_pieces b, joinPieces, List.mem_flatMap]
    refine ⟨_, read, ?_⟩
    rw [Piece.bytes, ← encode_singleton]
    exact (mem_encode_of_ascii ascii).2 ⟨c, List.mem_singleton_self c, same⟩

/-! ## Trimming -/

/-- The pieces that trimming keeps: those from the first to the last that is not blank. -/
def trimPieces (ps : List Piece) : List Piece :=
  ((ps.dropWhile Piece.isBlank).reverse.dropWhile Piece.isBlank).reverse

theorem head?_dropWhile {α : Type} (p : α → Bool) (l : List α) : ∀ x ∈ (l.dropWhile p).head?, p x = false := by
  intro x first
  have kept := List.head?_dropWhile_not p l
  rw [Option.mem_def.1 first] at kept
  exact kept

theorem trimPieces_split (ps : List Piece) :
    ps = ps.takeWhile Piece.isBlank ++ trimPieces ps ++
      ((ps.dropWhile Piece.isBlank).reverse.takeWhile Piece.isBlank).reverse := by
  have back := congrArg List.reverse
    (List.takeWhile_append_dropWhile (p := Piece.isBlank) (l := (ps.dropWhile Piece.isBlank).reverse))
  rw [List.reverse_reverse, List.reverse_append] at back
  rw [trimPieces, List.append_assoc, back, List.takeWhile_append_dropWhile]

theorem trimPieces_head? (ps : List Piece) : ∀ p ∈ (trimPieces ps).head?, p.isBlank = false := by
  intro p first
  rw [trimPieces, List.head?_reverse] at first
  -- the last piece kept is the last of the pieces after the leading blanks, whose first is kept
  obtain ⟨front, whole⟩ := List.dropWhile_suffix Piece.isBlank (l := (ps.dropWhile Piece.isBlank).reverse)
  have last : p ∈ (ps.dropWhile Piece.isBlank).reverse.getLast? := by
    rw [← whole, List.getLast?_append, Option.mem_def.1 first]
    rfl
  rw [List.getLast?_reverse] at last
  exact head?_dropWhile _ _ p last

theorem trimPieces_getLast? (ps : List Piece) : ∀ p ∈ (trimPieces ps).getLast?, p.isBlank = false := by
  rw [trimPieces, List.getLast?_reverse]
  exact head?_dropWhile _ _

end MarketData.Utf8

namespace MarketData.Bytes

open Utf8

theorem trimBlank_eq (b : Bytes) : b.trimBlank = joinPieces (trimPieces (pieces b)) := rfl

theorem pieces_trimBlank (b : Bytes) : pieces b.trimBlank = trimPieces (pieces b) :=
  pieces_infix (trimPieces_split (pieces b))

theorem trimBlank_infix (b : Bytes) : b.trimBlank <:+: b := by
  refine ⟨joinPieces ((pieces b).takeWhile Piece.isBlank),
    joinPieces (((pieces b).dropWhile Piece.isBlank).reverse.takeWhile Piece.isBlank).reverse, ?_⟩
  rw [trimBlank_eq, ← joinPieces_append, ← joinPieces_append, ← trimPieces_split, joinPieces_pieces]

end MarketData.Bytes
