import MarketData.Proofs.Protobuf.Tables
import MarketData.Proofs.Except

/-!
# Walking a message

A message is read one field at a time, each from the front of what is left. Two facts about the
reader of one field carry everything in this module: what follows a field never changes how the
field reads (`readField_append`), and every field read takes at least one byte
(`length_lt_of_readField`).

`Splits b fs` says that the message `b` is the fields `fs` laid end to end, each read by
`readField`. It is the grammar of a message that the wire reader accepts, and the walk over a
message follows it:

* the walk gives a result exactly when the message splits into fields and the visits of those
  fields succeed one after another (`foldFields_eq_ok_iff`), so a message splits exactly when
  `fieldsRead` gives its fields (`fieldsRead_eq_ok_iff`);
* two messages laid side by side split into the fields of the first, then those of the second
  (`Splits.append`), and the walk over them visits the first, then the second
  (`foldFields_append`).
-/

namespace MarketData.Protobuf

/-! ## What follows a field -/

theorem readVarintFrom_append (tail : Bytes) :
    ∀ (fuel acc index : Nat) (b rest : Bytes) (v : UInt64),
      readVarintFrom acc index fuel b = .ok (v, rest) →
        readVarintFrom acc index fuel (b ++ tail) = .ok (v, rest ++ tail) ∧ rest.length < b.length
  | 0, _, _, _, _, _, read => by simp [readVarintFrom] at read
  | _ + 1, _, _, [], _, _, read => by simp [readVarintFrom] at read
  | fuel + 1, acc, index, x :: b, rest, v, read => by
    rw [List.cons_append, readVarintFrom]
    rw [readVarintFrom] at read
    by_cases last : index = 9
    · rw [if_pos last] at read ⊢
      by_cases small : x < 2
      · rw [if_pos small] at read ⊢
        cases read
        exact ⟨rfl, by simp⟩
      · rw [if_neg small] at read
        cases read
    · rw [if_neg last] at read ⊢
      by_cases small : x < 0x80
      · rw [if_pos small] at read ⊢
        cases read
        exact ⟨rfl, by simp⟩
      · rw [if_neg small] at read ⊢
        obtain ⟨later, shorter⟩ := readVarintFrom_append tail fuel _ _ b rest v read
        exact ⟨later, by simp only [List.length_cons]; omega⟩

theorem readVarint_append {b rest : Bytes} {v : UInt64} (read : readVarint b = .ok (v, rest))
    (tail : Bytes) : readVarint (b ++ tail) = .ok (v, rest ++ tail) ∧ rest.length < b.length :=
  readVarintFrom_append tail 10 0 0 b rest v read

theorem readTag_append {b rest : Bytes} {num wireType : Nat}
    (read : readTag b = .ok (num, wireType, rest)) (tail : Bytes) :
    readTag (b ++ tail) = .ok (num, wireType, rest ++ tail) ∧ rest.length < b.length := by
  unfold readTag at read ⊢
  cases varint : readVarint b with
  | error e =>
    rw [varint] at read
    cases read
  | ok p =>
    obtain ⟨v, after⟩ := p
    obtain ⟨later, shorter⟩ := readVarint_append varint tail
    rw [varint, ok_bind] at read
    rw [later, ok_bind]
    dsimp only at read ⊢
    split at read
    · cases read
    · rename_i numbered
      cases read
      exact ⟨by rw [if_neg numbered]; rfl, shorter⟩

theorem takeExactly_prefix {n : Nat} {b taken rest : Bytes} (take : takeExactly n b = .ok (taken, rest))
    (tail : Bytes) : takeExactly n (b ++ tail) = .ok (taken, rest ++ tail) ∧ rest.length ≤ b.length := by
  unfold takeExactly at take ⊢
  split at take
  · rename_i enough
    cases take
    rw [if_pos (by simp only [List.length_append]; omega), List.take_append_of_le_length enough,
      List.drop_append_of_le_length enough]
    exact ⟨rfl, by simp⟩
  · cases take

/-- The value of a field reads from the front of its input, and more fuel never changes a value
read: fuel only bounds the walk through nested groups. -/
theorem readValue_append (tail : Bytes) : ∀ fuel : Nat,
    (∀ fuel' depth num wireType b payload rest, fuel ≤ fuel' →
      readValue fuel depth num wireType b = .ok (payload, rest) →
        readValue fuel' depth num wireType (b ++ tail) = .ok (payload, rest ++ tail) ∧
          rest.length ≤ b.length) ∧
    (∀ fuel' depth num b payload rest, fuel ≤ fuel' →
      readValue.skipGroup fuel depth num b = .ok (payload, rest) →
        readValue.skipGroup fuel' depth num (b ++ tail) = .ok (payload, rest ++ tail) ∧
          rest.length ≤ b.length)
  | 0 => by
    refine ⟨fun _ _ _ _ _ _ _ _ read => ?_, fun _ _ _ _ _ _ _ read => ?_⟩ <;>
      simp [readValue, readValue.skipGroup] at read
  | fuel + 1 => by
    obtain ⟨deeper, skips⟩ := readValue_append tail fuel
    constructor
    · intro fuel' depth num wireType b payload rest enough read
      obtain ⟨fuel', rfl⟩ : ∃ f, fuel' = f + 1 := ⟨fuel' - 1, by omega⟩
      rcases wireType with _ | _ | _ | _ | _ | _ | wireType
      · simp only [readValue] at read ⊢
        obtain ⟨⟨v, after⟩, varint, read⟩ := bind_eq_ok.1 read
        obtain ⟨later, shorter⟩ := readVarint_append varint tail
        cases read
        rw [later, ok_bind]
        exact ⟨rfl, Nat.le_of_lt shorter⟩
      · simp only [Nat.reduceAdd, readValue] at read ⊢
        obtain ⟨⟨w, after⟩, taken, read⟩ := bind_eq_ok.1 read
        obtain ⟨later, shorter⟩ := takeExactly_prefix taken tail
        cases read
        rw [later, ok_bind]
        exact ⟨rfl, shorter⟩
      · simp only [Nat.reduceAdd, readValue] at read ⊢
        obtain ⟨⟨length, after⟩, varint, read⟩ := bind_eq_ok.1 read
        obtain ⟨content, taken, read⟩ := bind_eq_ok.1 read
        obtain ⟨w, after'⟩ := content
        obtain ⟨later, shorter⟩ := readVarint_append varint tail
        obtain ⟨later', shorter'⟩ := takeExactly_prefix taken tail
        cases read
        rw [later, ok_bind]
        dsimp only
        rw [later', ok_bind]
        exact ⟨rfl, by simp only at shorter' ⊢; omega⟩
      · -- a group: its fields are skipped with one step of fuel less
        simp only [Nat.reduceAdd, readValue] at read ⊢
        split at read
        · cases read
        · rename_i opened
          rw [if_neg opened]
          exact skips fuel' (depth - 1) num b payload rest (by omega) read
      · simp [readValue] at read
      · simp only [Nat.reduceAdd, readValue] at read ⊢
        obtain ⟨⟨w, after⟩, taken, read⟩ := bind_eq_ok.1 read
        obtain ⟨later, shorter⟩ := takeExactly_prefix taken tail
        cases read
        rw [later, ok_bind]
        exact ⟨rfl, shorter⟩
      · simp [readValue] at read
    · intro fuel' depth num b payload rest enough read
      obtain ⟨fuel', rfl⟩ : ∃ f, fuel' = f + 1 := ⟨fuel' - 1, by omega⟩
      simp only [readValue.skipGroup] at read ⊢
      obtain ⟨⟨num2, type2, after⟩, tagged, read⟩ := bind_eq_ok.1 read
      obtain ⟨later, shorter⟩ := readTag_append tagged tail
      rw [later, ok_bind]
      dsimp only at read ⊢
      split at read
      · -- an end tag: it must close this group
        rename_i closing
        rw [if_pos closing]
        split at read
        · rename_i same
          cases read
          rw [if_pos same]
          exact ⟨rfl, Nat.le_of_lt shorter⟩
        · cases read
      · -- another field inside the group, then the rest of the group
        rename_i inside
        rw [if_neg inside]
        obtain ⟨⟨skipped, after'⟩, value, read⟩ := bind_eq_ok.1 read
        obtain ⟨valueLater, valueShorter⟩ := deeper fuel' depth num2 type2 after skipped after'
          (by omega) value
        obtain ⟨restLater, restShorter⟩ := skips fuel' depth num after' payload rest (by omega) read
        rw [valueLater, ok_bind]
        exact ⟨restLater, by omega⟩

/-- A field reads from the front of a message, whatever follows it, and takes at least one
byte. -/
theorem readField_append {b rest : Bytes} {f : Field} (read : readField b = .ok (f, rest))
    (tail : Bytes) : readField (b ++ tail) = .ok (f, rest ++ tail) ∧ rest.length < b.length := by
  unfold readField at read ⊢
  cases tagged : readTag b with
  | error e =>
    rw [tagged] at read
    cases read
  | ok p =>
    obtain ⟨num, wireType, after⟩ := p
    obtain ⟨tagLater, tagShorter⟩ := readTag_append tagged tail
    rw [tagged] at read
    rw [tagLater]
    dsimp only at read ⊢
    cases value : readValue (after.length + 1) 10001 num wireType after with
    | error e =>
      rw [value] at read
      cases read
    | ok q =>
      obtain ⟨payload, after'⟩ := q
      rw [value] at read
      cases read
      -- the group walk gets more fuel from the longer input, which changes nothing
      obtain ⟨valueLater, valueShorter⟩ := (readValue_append tail _).1 ((after ++ tail).length + 1)
        10001 num wireType after payload rest (by simp) value
      rw [valueLater]
      exact ⟨rfl, by omega⟩

theorem readField_nil : ∃ e, readField [] = .error e := ⟨_, rfl⟩

theorem code?_of_readField_eq_error {b : Bytes} {e : Failure} (refused : readField b = .error e) :
    e.code? = some .malformedPayload := by
  unfold readField at refused
  split at refused
  · cases refused
    rfl
  · split at refused
    · cases refused
      rfl
    · cases refused

/-! ## Messages as lists of fields -/

/-- The message `b` is the fields `fs` laid end to end, each read by `readField`. -/
inductive Splits : Bytes → List Field → Prop
  /-- The empty message has no fields. -/
  | nil : Splits [] []
  /-- A field read from the front of a message, then the fields of what is left. -/
  | cons {b rest : Bytes} {f : Field} {fs : List Field} :
      readField b = .ok (f, rest) → Splits rest fs → Splits b (f :: fs)

namespace Splits

theorem nil_iff {fs : List Field} : Splits [] fs ↔ fs = [] := by
  constructor
  · intro split
    cases split with
    | nil => rfl
    | cons read _ =>
      obtain ⟨e, refused⟩ := readField_nil
      rw [refused] at read
      cases read
  · rintro rfl
    exact .nil

theorem unique {b : Bytes} {fs fs' : List Field} (split : Splits b fs) (split' : Splits b fs') : fs = fs' := by
  induction split generalizing fs' with
  | nil => exact (nil_iff.1 split').symm
  | cons read _ inductionHypothesis =>
    cases split' with
    | nil =>
      obtain ⟨e, refused⟩ := readField_nil
      rw [refused] at read
      cases read
    | cons read' rest' =>
      rw [read] at read'
      cases read'
      rw [inductionHypothesis rest']

theorem append {u v : Bytes} {us vs : List Field} (first : Splits u us) (second : Splits v vs) :
    Splits (u ++ v) (us ++ vs) := by
  induction first with
  | nil => exact second
  | cons read _ inductionHypothesis => exact .cons (readField_append read v).1 inductionHypothesis

end Splits

section Walk

variable {σ : Type} (visit : σ → Field → Except Failure σ)

/-- The walk over a message, given more fuel than the message has bytes, gives a result exactly
when the message splits into fields and visiting them in order gives that result. -/
theorem foldFields_go_eq_ok_iff :
    ∀ (fuel : Nat) (s : σ) (b : Bytes) (r : σ), b.length < fuel →
      (foldFields.go visit fuel s b = .ok r ↔ ∃ fs, Splits b fs ∧ fs.foldlM visit s = .ok r)
  | 0, _, _, _, enough => absurd enough (Nat.not_lt_zero _)
  | fuel + 1, s, [], r, _ => by
    simp only [foldFields.go, Splits.nil_iff, exists_eq_left, List.foldlM_nil]
    exact ⟨fun walked => by cases walked; rfl, fun visited => by cases visited; rfl⟩
  | fuel + 1, s, x :: b, r, enough => by
    rw [foldFields.go.eq_3 _ _ _ _ (List.cons_ne_nil x b)]
    constructor
    · intro walked
      obtain ⟨⟨f, rest⟩, read, walked⟩ := bind_eq_ok.1 walked
      obtain ⟨s', visited, walked⟩ := bind_eq_ok.1 walked
      have shorter := (readField_append read []).2
      obtain ⟨fs, split, folded⟩ :=
        (foldFields_go_eq_ok_iff fuel s' rest r (by simp only [List.length_cons] at shorter enough; omega)).1 walked
      exact ⟨f :: fs, .cons read split, by rw [List.foldlM_cons, visited, ok_bind]; exact folded⟩
    · rintro ⟨fs, split, folded⟩
      cases split with
      | cons read split =>
        rename_i rest f fs
        rw [List.foldlM_cons] at folded
        obtain ⟨s', visited, folded⟩ := bind_eq_ok.1 folded
        have shorter := (readField_append read []).2
        rw [read, ok_bind]
        dsimp only
        rw [visited, ok_bind]
        exact (foldFields_go_eq_ok_iff fuel s' rest r
          (by simp only [List.length_cons] at shorter enough; omega)).2 ⟨fs, split, folded⟩

theorem foldFields_eq_ok_iff {init r : σ} {b : Bytes} :
    foldFields visit init b = .ok r ↔ ∃ fs, Splits b fs ∧ fs.foldlM visit init = .ok r :=
  foldFields_go_eq_ok_iff visit _ init b r (Nat.lt_succ_self _)

/-- A walk fails only where reading a field fails, with a malformed payload, or where a visit
fails. -/
theorem foldFields_go_eq_error :
    ∀ (fuel : Nat) (s : σ) (b : Bytes) (e : Failure), foldFields.go visit fuel s b = .error e →
      e.code? = some .malformedPayload ∨ ∃ s' f, visit s' f = .error e
  | 0, _, _, _, walked => by cases walked
  | fuel + 1, s, [], e, walked => by cases walked
  | fuel + 1, s, x :: b, e, walked => by
    rw [foldFields.go.eq_3 _ _ _ _ (List.cons_ne_nil x b)] at walked
    rcases bind_eq_error.1 walked with refused | ⟨⟨f, rest⟩, _, walked⟩
    · exact .inl (code?_of_readField_eq_error refused)
    · rcases bind_eq_error.1 walked with refused | ⟨s', _, walked⟩
      · exact .inr ⟨s, f, refused⟩
      · exact foldFields_go_eq_error fuel s' rest e walked

theorem foldFields_eq_error {init : σ} {b : Bytes} {e : Failure}
    (walked : foldFields visit init b = .error e) :
    e.code? = some .malformedPayload ∨ ∃ s f, visit s f = .error e :=
  foldFields_go_eq_error visit _ init b e walked

end Walk

theorem fieldsRead_eq_ok_iff {b : Bytes} {fs : List Field} : fieldsRead b = .ok fs ↔ Splits b fs := by
  rw [fieldsRead, foldFields_eq_ok_iff]
  constructor
  · rintro ⟨fs', split, collected⟩
    rw [foldlM_collect, List.nil_append] at collected
    cases collected
    exact split
  · intro split
    exact ⟨fs, split, by rw [foldlM_collect, List.nil_append]⟩

end MarketData.Protobuf
