import MarketData.Borsh.Entity
import MarketData.Proofs.Bytes
import MarketData.Proofs.Except

/-!
# Readers that take exactly their encoding

A borsh reader parses a byte string `w` (`Parses`) when three things hold. Every proper prefix
of `w` is refused as a corrupt or truncated payload. When the lengths written in `w` are ones
the reader accepts (`fits`), `w` followed by anything reads back the value and leaves what
follows. When they are not, `w` followed by anything is refused, again as a corrupt payload.
So `w` is read as one unit whatever stands around it, and on it a reader never fails in any
other way.

Parsing is closed under `bind` (`Parses.bind`): a reader of a composite value parses the
concatenation of its parts' encodings. The base readers parse what their writers produce: a
byte, a word, a float other than NaN, a length below 2^32 (accepted up to 2^31 - 1), text, and
a side of levels, whose count is checked against the rest of the input.
-/

namespace MarketData.Borsh

variable {α β : Type}

/-- A computation that fails as a corrupt or truncated payload. -/
def Malformed : Except Failure α → Prop
  | .ok _ => False
  | .error f => f.code? = some .malformedPayload

@[simp] theorem malformed_unreadable (reason : String) :
    Malformed (.error (unreadable reason) : Except Failure α) := rfl

theorem malformed_iff {x : Except Failure α} :
    Malformed x ↔ ∃ f, x = .error f ∧ f.code? = some .malformedPayload := by
  cases x with
  | error f => exact ⟨fun refused => ⟨f, rfl, refused⟩, fun ⟨_, same, refused⟩ => by cases same; exact refused⟩
  | ok a => exact ⟨False.elim, fun ⟨_, same, _⟩ => nomatch same⟩

theorem malformed_bind {R : Reader α} {f : α → Reader β} {b : Bytes} (refused : Malformed (R.run b)) :
    Malformed ((R >>= f).run b) := by
  rw [StateT.run_bind]
  cases read : R.run b with
  | error e =>
    rw [read] at refused
    exact refused
  | ok p =>
    rw [read] at refused
    exact refused.elim

theorem take_run (n : Nat) (reason : Nat → String) (b : Bytes) :
    (take n reason).run b =
      if n ≤ b.length then .ok (b.take n, b.drop n) else .error (unreadable (reason b.length)) := by
  by_cases enough : n ≤ b.length
  · simp only [take, StateT.run_bind, StateT.run_get, pure_bind, if_pos enough, StateT.run_set,
      StateT.run_pure]
    rfl
  · simp only [take, StateT.run_bind, StateT.run_get, pure_bind, if_neg enough, run_throw]

/-- `R` reads `w` as one unit and gives `x`; `fits` says whether it accepts the lengths in `w`. -/
structure Parses (R : Reader α) (w : Bytes) (x : α) (fits : Prop) : Prop where
  /-- A proper prefix of `w` is refused as truncated. -/
  truncated : ∀ p q, p ++ q = w → q ≠ [] → Malformed (R.run p)
  /-- Accepted lengths: `w` reads back as `x`, leaving what follows. -/
  reads : fits → ∀ rest, R.run (w ++ rest) = .ok (x, rest)
  /-- Refused lengths: `w` is refused as corrupt, whatever follows. -/
  refuses : ¬fits → ∀ rest, Malformed (R.run (w ++ rest))

namespace Parses

variable {R : Reader α} {w : Bytes} {x : α} {A : Prop}

theorem cast {w' : Bytes} {B : Prop} (parses : Parses R w x A) (bytes : w = w') (same : A ↔ B) :
    Parses R w' x B := by
  subst bytes
  exact ⟨parses.truncated, fun fits => parses.reads (same.2 fits),
    fun unfit => parses.refuses (fun fits => unfit (same.1 fits))⟩

/-- Reading one part and then, from what it gave, the next. The cases of a prefix follow
`List.append_eq_append_iff`: it ends inside the first part, or takes all of it and ends inside
the second. -/
theorem bind {f : α → Reader β} {w₂ : Bytes} {y : β} {B : Prop}
    (first : Parses R w x A) (second : Parses (f x) w₂ y B) :
    Parses (R >>= f) (w ++ w₂) y (A ∧ B) := by
  have cutLate : ∀ c q, c ++ q = w₂ → q ≠ [] → Malformed ((R >>= f).run (w ++ c)) := by
    intro c q split nonempty
    by_cases fitsFirst : A
    · rw [run_bind_of_run (first.reads fitsFirst c)]
      exact second.truncated c q split nonempty
    · exact malformed_bind (first.refuses fitsFirst c)
  constructor
  · intro p q split nonempty
    rcases List.append_eq_append_iff.1 split with ⟨mid, early, late⟩ | ⟨mid, early, late⟩
    · cases mid with
      | nil =>
        rw [List.append_nil] at early
        rw [List.nil_append] at late
        subst early late
        simpa using cutLate [] q rfl nonempty
      | cons b bs => exact malformed_bind (first.truncated p (b :: bs) early.symm (List.cons_ne_nil b bs))
    · rw [early]
      exact cutLate mid q late.symm nonempty
  · intro fits rest
    rw [List.append_assoc, run_bind_of_run (first.reads fits.1 _)]
    exact second.reads fits.2 rest
  · intro unfit rest
    rw [List.append_assoc]
    by_cases fitsFirst : A
    · rw [run_bind_of_run (first.reads fitsFirst _)]
      exact second.refuses (fun fitsSecond => unfit ⟨fitsFirst, fitsSecond⟩) rest
    · exact malformed_bind (first.refuses fitsFirst _)

end Parses

theorem parses_pure (x : α) : Parses (pure x : Reader α) [] x True where
  truncated _ _ split nonempty := absurd (List.append_eq_nil_iff.1 split).2 nonempty
  reads _ _ := rfl
  refuses unfit := absurd trivial unfit

theorem parses_guard (c : Prop) [Decidable c] (reason : String) (x : α) :
    Parses (if c then throw (unreadable reason) else pure x : Reader α) [] x (¬c) where
  truncated _ _ split nonempty := absurd (List.append_eq_nil_iff.1 split).2 nonempty
  reads fits rest := by
    rw [if_neg fits]
    rfl
  refuses unfit rest := by
    rw [if_pos (Classical.not_not.1 unfit), run_throw]
    exact malformed_unreadable reason

theorem Parses.map_pure {R : Reader α} {w : Bytes} {x : α} {A : Prop} (parses : Parses R w x A)
    (g : α → β) {y : β} (value : g x = y) : Parses (R >>= fun a => pure (g a)) w y A := by
  subst value
  exact (parses.bind (parses_pure (g x))).cast (List.append_nil w) (and_true A).to_iff

theorem parses_take {w : Bytes} {n : Nat} (sized : w.length = n) (reason : Nat → String) :
    Parses (take n reason) w w True where
  truncated p q split nonempty := by
    have whole := congrArg List.length split
    have some := List.length_pos_iff.2 nonempty
    rw [List.length_append] at whole
    rw [take_run, if_neg (by omega)]
    exact malformed_unreadable _
  reads _ rest := by
    rw [take_run, if_pos (by simp; omega), ← sized, List.take_left, List.drop_left]
  refuses unfit := absurd trivial unfit

/-! ## Base readers -/

theorem parses_readByte (x : UInt8) : Parses readByte [x] x True :=
  (parses_take (rfl : [x].length = 1) _).map_pure _ rfl

theorem parses_readWord (v : UInt64) : Parses readWord (word v) v True :=
  (parses_take (Bytes.length_littleEndian 8 v.toNat) _).map_pure _ (Bytes.toUInt64_readLittleEndian v)

theorem parses_readFloat {x : F64} (number : x.isNaN = false) :
    Parses readFloat (Bytes.littleEndian 8 x.bits.toNat) x True := by
  have bits : (⟨(Bytes.readLittleEndian (Bytes.littleEndian 8 x.bits.toNat)).toUInt64⟩ : F64) = x := by
    rw [Bytes.toUInt64_readLittleEndian]
  have check : Parses (if (⟨(Bytes.readLittleEndian (Bytes.littleEndian 8 x.bits.toNat)).toUInt64⟩ : F64).isNaN
      then throw (unreadable "NaN for float not allowed")
      else pure ⟨(Bytes.readLittleEndian (Bytes.littleEndian 8 x.bits.toNat)).toUInt64⟩) [] x
      (¬x.isNaN = true) := by
    rw [bits]
    exact parses_guard _ _ x
  exact ((parses_take (Bytes.length_littleEndian 8 x.bits.toNat) _).bind check).cast
    (List.append_nil _) (by simp [number])

theorem parses_readLength {n : Nat} (fits : n < 2 ^ 32) :
    Parses readLength (length n) n (n ≤ 0x7FFFFFFF) := by
  have exact : Bytes.readLittleEndian (length n) = n :=
    Bytes.readLittleEndian_littleEndian_of_lt (by simpa using fits)
  have check : Parses (if Bytes.readLittleEndian (length n) > 0x7FFFFFFF
      then throw (unreadable "unexpected EOF") else pure (Bytes.readLittleEndian (length n))) [] n
      (¬n > 0x7FFFFFFF) := by
    rw [exact]
    exact parses_guard _ _ n
  exact ((parses_take (Bytes.length_littleEndian 4 n) _).bind check).cast
    (List.append_nil _) (by simp)

theorem parses_readText {t : Bytes} (fits : t.length < 2 ^ 32) :
    Parses readText (text t) t (t.length ≤ 0x7FFFFFFF) :=
  ((parses_readLength fits).bind (parses_take rfl _)).cast rfl (and_true _).to_iff

/-! ## Sides -/

/-- The sixteen bytes of a level: its price, then its quantity. -/
def levelBytes (x : Level) : Bytes :=
  Bytes.littleEndian 8 x.price.bits.toNat ++ Bytes.littleEndian 8 x.quantity.bits.toNat

theorem length_flatMap_levelBytes (xs : List Level) : (xs.flatMap levelBytes).length = 16 * xs.length := by
  induction xs with
  | nil => rfl
  | cons x xs inductionHypothesis =>
    simp only [List.flatMap_cons, List.length_append, levelBytes, Bytes.length_littleEndian,
      inductionHypothesis, List.length_cons]
    omega

theorem parses_readLevelList : ∀ (xs : List Level),
    (∀ y ∈ xs.flatMap (fun x => [x.price, x.quantity]), y.isNaN = false) →
      Parses (readLevelList xs.length) (xs.flatMap levelBytes) xs True
  | [], _ => parses_pure []
  | x :: xs, numbers => by
    have price : x.price.isNaN = false := numbers _ (by simp)
    have quantity : x.quantity.isNaN = false := numbers _ (by simp)
    have rest := parses_readLevelList xs fun y member =>
      numbers y (List.mem_append_right _ member)
    rw [List.length_cons, readLevelList]
    exact Parses.cast
      (Parses.bind (parses_readFloat price) (Parses.bind (parses_readFloat quantity)
        (Parses.bind rest (parses_pure _))))
      (by simp [levelBytes]) (by simp)

/-- A side reads back as its normal form. After the count, the reader checks that the levels
can fit in what remains; on a proper prefix that check already refuses the input. -/
theorem parses_readLevels {xs : List Level}
    (numbers : ∀ y ∈ xs.flatMap (fun x => [x.price, x.quantity]), y.isNaN = false)
    (fits : xs.length < 2 ^ 32) :
    Parses readLevels (length xs.length ++ xs.flatMap levelBytes) (Levels.ofList xs)
      (xs.length ≤ 0x7FFFFFFF) := by
  unfold readLevels
  refine Parses.cast (Parses.bind (parses_readLength fits) ?_) rfl (and_true _).to_iff
  dsimp only
  constructor
  · intro p q split nonempty
    have whole := congrArg List.length split
    have some := List.length_pos_iff.2 nonempty
    rw [List.length_append, length_flatMap_levelBytes] at whole
    simp only [StateT.run_bind, StateT.run_get, pure_bind]
    rw [if_pos (by omega)]
    simp only [StateT.run_bind, run_throw]
    rfl
  · intro _ rest
    simp only [StateT.run_bind, StateT.run_get, pure_bind]
    rw [if_neg (by simp only [List.length_append, length_flatMap_levelBytes]; omega)]
    cases xs with
    | nil => rfl
    | cons x xs =>
      rw [if_neg (List.cons_ne_nil x xs ∘ List.eq_nil_of_length_eq_zero), StateT.run_bind,
        (parses_readLevelList _ numbers).reads trivial rest]
      rfl
  · intro unfit
    exact absurd trivial unfit

/-! ## What a reader took

The converse direction: whatever a reader accepts is the encoding of what it gave. -/

theorem take_sound {n : Nat} {reason : Nat → String} {b w rest : Bytes}
    (read : (take n reason).run b = .ok (w, rest)) : w.length = n ∧ b = w ++ rest := by
  rw [take_run] at read
  by_cases enough : n ≤ b.length
  · rw [if_pos enough] at read
    cases read
    exact ⟨List.length_take_of_le enough, (List.take_append_drop n b).symm⟩
  · rw [if_neg enough] at read
    cases read

theorem readByte_sound {b rest : Bytes} {x : UInt8} (read : readByte.run b = .ok (x, rest)) :
    b = [x] ++ rest := by
  obtain ⟨w, mid, took, gave⟩ := run_bind_eq_ok read
  obtain ⟨rfl, rfl⟩ := run_pure_eq_ok gave
  obtain ⟨single, rfl⟩ := take_sound took
  obtain ⟨a, rfl⟩ := List.length_eq_one_iff.1 single
  rfl

theorem readWord_sound {b rest : Bytes} {v : UInt64} (read : readWord.run b = .ok (v, rest)) :
    b = word v ++ rest := by
  obtain ⟨w, mid, took, gave⟩ := run_bind_eq_ok read
  obtain ⟨rfl, rfl⟩ := run_pure_eq_ok gave
  obtain ⟨eight, rfl⟩ := take_sound took
  rw [word, Bytes.littleEndian_toUInt64 eight]

theorem readFloat_sound {b rest : Bytes} {x : F64} (read : readFloat.run b = .ok (x, rest)) :
    x.isNaN = false ∧ b = Bytes.littleEndian 8 x.bits.toNat ++ rest := by
  obtain ⟨w, mid, took, checked⟩ := run_bind_eq_ok read
  obtain ⟨eight, rfl⟩ := take_sound took
  dsimp only at checked
  obtain ⟨number, rfl, rfl⟩ := run_ite_throw_eq_ok checked
  exact ⟨Bool.eq_false_iff.2 number, by rw [Bytes.littleEndian_toUInt64 eight]⟩

theorem readLength_sound {b rest : Bytes} {n : Nat} (read : readLength.run b = .ok (n, rest)) :
    n ≤ 0x7FFFFFFF ∧ b = length n ++ rest := by
  obtain ⟨w, mid, took, checked⟩ := run_bind_eq_ok read
  obtain ⟨four, rfl⟩ := take_sound took
  dsimp only at checked
  obtain ⟨fits, rfl, rfl⟩ := run_ite_throw_eq_ok checked
  refine ⟨Nat.le_of_not_gt fits, ?_⟩
  rw [length, ← four, Bytes.littleEndian_readLittleEndian]

theorem readText_sound {b rest : Bytes} {t : Bytes} (read : readText.run b = .ok (t, rest)) :
    t.length ≤ 0x7FFFFFFF ∧ b = text t ++ rest := by
  obtain ⟨n, mid, counted, took⟩ := run_bind_eq_ok read
  obtain ⟨fits, rfl⟩ := readLength_sound counted
  obtain ⟨sized, rfl⟩ := take_sound took
  subst sized
  exact ⟨fits, by rw [text, List.append_assoc]⟩

theorem readLevelList_sound : ∀ (n : Nat) {b rest : Bytes} {xs : List Level},
    (readLevelList n).run b = .ok (xs, rest) →
      xs.length = n ∧ (∀ y ∈ xs.flatMap (fun x => [x.price, x.quantity]), y.isNaN = false) ∧
        b = xs.flatMap levelBytes ++ rest
  | 0, _, _, _, read => by
    obtain ⟨rfl, rfl⟩ := run_pure_eq_ok read
    exact ⟨rfl, by simp, rfl⟩
  | n + 1, _, _, _, read => by
    obtain ⟨price, _, readPrice, read₁⟩ := run_bind_eq_ok read
    obtain ⟨quantity, _, readQuantity, read₂⟩ := run_bind_eq_ok read₁
    obtain ⟨ys, _, readRest, gave⟩ := run_bind_eq_ok read₂
    obtain ⟨rfl, rfl⟩ := run_pure_eq_ok gave
    obtain ⟨priceNumber, rfl⟩ := readFloat_sound readPrice
    obtain ⟨quantityNumber, rfl⟩ := readFloat_sound readQuantity
    obtain ⟨counted, numbers, rfl⟩ := readLevelList_sound n readRest
    refine ⟨by rw [List.length_cons, counted], ?_, by simp [levelBytes]⟩
    intro y member
    rw [List.flatMap_cons, List.mem_append] at member
    rcases member with here | later
    · simp only [List.mem_cons, List.not_mem_nil, or_false] at here
      rcases here with rfl | rfl
      · exact priceNumber
      · exact quantityNumber
    · exact numbers y later

theorem readLevels_sound {b rest : Bytes} {l : Levels} (read : readLevels.run b = .ok (l, rest)) :
    l.toList.length ≤ 0x7FFFFFFF ∧
      (∀ y ∈ l.toList.flatMap (fun x => [x.price, x.quantity]), y.isNaN = false) ∧
        b = length l.toList.length ++ l.toList.flatMap levelBytes ++ rest := by
  obtain ⟨n, after, counted, checked⟩ := run_bind_eq_ok read
  obtain ⟨fits, rfl⟩ := readLength_sound counted
  simp only [StateT.run_bind, StateT.run_get, pure_bind] at checked
  by_cases excess : n * 16 > after.length
  · rw [if_pos excess] at checked
    simp only [StateT.run_bind, run_throw] at checked
    cases checked
  · rw [if_neg excess] at checked
    by_cases empty : n = 0
    · subst empty
      rw [if_pos rfl] at checked
      obtain ⟨rfl, rfl⟩ := run_pure_eq_ok checked
      exact ⟨by decide, by simp [Levels.toList], rfl⟩
    · rw [if_neg empty] at checked
      obtain ⟨xs, _, readList, gave⟩ := run_bind_eq_ok checked
      obtain ⟨rfl, rfl⟩ := run_pure_eq_ok gave
      obtain ⟨rfl, numbers, rfl⟩ := readLevelList_sound n readList
      exact ⟨fits, numbers, by rw [List.append_assoc]; rfl⟩

end MarketData.Borsh
