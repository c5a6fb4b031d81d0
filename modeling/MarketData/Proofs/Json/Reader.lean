import MarketData.Proofs.Json.Floats
import MarketData.Proofs.Except

/-!
# The JSON reader on written text

The reader of entities runs in `Reader`, a state of the text still to read. This module says
what its steps do on text laid out the way the writer lays it out:

* blanks are skipped up to the first byte that is no blank (`run_blanks`);
* a value is read by a reader that `Reads` it: whatever delimited text follows, the reader takes
  the value's text and leaves the rest;
* an object whose members are laid out between braces, each after a blank `lead`, its key
  quoted and followed by a colon and a blank gap, and separated by commas, is read member by
  member: each key finds its member, and the member's reader takes the value
  (`run_readObject`). The compact and the indented forms of a document are two such layouts.
-/

namespace MarketData.Json

/-! ## Blanks -/

/-- Bytes that are all JSON blanks. -/
def Blank (w : Bytes) : Prop := ∀ b ∈ w, isSpace b = true

/-- Text that starts with a byte that is no blank. -/
def Solid (b : Bytes) : Prop := ∃ x rest, b = x :: rest ∧ isSpace x = false

theorem blank_nil : Blank [] := List.forall_mem_nil _

theorem Blank.append {w w' : Bytes} (first : Blank w) (second : Blank w') : Blank (w ++ w') := by
  intro b member
  rcases List.mem_append.1 member with inFirst | inSecond
  · exact first b inFirst
  · exact second b inSecond

theorem Solid.append {b : Bytes} (solid : Solid b) (rest : Bytes) : Solid (b ++ rest) := by
  obtain ⟨x, more, rfl, notBlank⟩ := solid
  exact ⟨x, more ++ rest, rfl, notBlank⟩

theorem skipSpace_solid {b : Bytes} (solid : Solid b) : skipSpace b = b := by
  obtain ⟨x, rest, rfl, notBlank⟩ := solid
  simp [skipSpace, notBlank]

theorem skipSpace_blank_append {w b : Bytes} (blank : Blank w) (solid : Solid b) :
    skipSpace (w ++ b) = b := by
  induction w with
  | nil => exact skipSpace_solid solid
  | cons x w inductionHypothesis =>
    have skipped : isSpace x = true := blank x (.head _)
    rw [List.cons_append, skipSpace, List.dropWhile_cons, if_pos skipped]
    exact inductionHypothesis fun b member => blank b (.tail _ member)

/-! ## Steps of the reader -/

section Steps

variable {α β : Type}

theorem run_blanks {w b : Bytes} (blank : Blank w) (solid : Solid b) : blanks.run (w ++ b) = .ok ((), b) := by
  show Except.ok ((), skipSpace (w ++ b)) = _
  rw [skipSpace_blank_append blank solid]

theorem run_blanks_solid {b : Bytes} (solid : Solid b) : blanks.run b = .ok ((), b) :=
  run_blanks blank_nil solid

theorem run_takeByte_self (c : UInt8) (rest : Bytes) : (takeByte c).run (c :: rest) = .ok (true, rest) := by
  show (if c == c then (set rest >>= fun _ => pure true : Reader Bool) else pure false).run (c :: rest) = _
  rw [if_pos (beq_self_eq_true c)]
  rfl

theorem run_takeByte_other {c x : UInt8} (other : x ≠ c) (rest : Bytes) :
    (takeByte c).run (x :: rest) = .ok (false, x :: rest) := by
  show (if x == c then (set rest >>= fun _ => pure true : Reader Bool) else pure false).run (x :: rest) = _
  rw [if_neg (by simpa using other)]
  rfl

theorem run_takeNull_other {b : Bytes} (other : startsWithNull b = false) : takeNull.run b = .ok (false, b) := by
  show (if startsWithNull b then (set (b.drop 4) >>= fun _ => pure true : Reader Bool) else pure false).run b = _
  rw [if_neg (by simp [other])]
  rfl

theorem ofString_null : Bytes.ofString "null" = [0x6E, 0x75, 0x6C, 0x6C] := by
  rw [Bytes.ofString_eq_encode]
  decide

theorem run_takeNull_null (rest : Bytes) : takeNull.run (Bytes.ofString "null" ++ rest) = .ok (true, rest) := by
  have starts : startsWithNull (Bytes.ofString "null" ++ rest) = true := by
    simp [startsWithNull, afterWord?, Bytes.stripPrefix?, ofString_null, List.isPrefixOf]
  show (if startsWithNull (Bytes.ofString "null" ++ rest) then
    (set ((Bytes.ofString "null" ++ rest).drop 4) >>= fun _ => pure true : Reader Bool)
    else pure false).run _ = _
  rw [if_pos starts, ofString_null]
  rfl

theorem run_expect {r : Bytes → Option (α × Bytes)} {b rest : Bytes} {a : α} (found : r b = some (a, rest)) :
    (expect r).run b = .ok (a, rest) := by
  unfold expect
  rw [run_bind_of_run (rfl : (get : Reader Bytes).run b = .ok (b, b))]
  simp only [found]
  rfl

theorem run_tryCatch_of_ok {x : Reader α} {handle : ReadError → Reader α} {s s' : Bytes} {a : α}
    (done : x.run s = .ok (a, s')) : (tryCatch x handle).run s = .ok (a, s') := by
  show tryCatch (x.run s) (fun e => (handle e).run s) = _
  rw [done]
  rfl

end Steps

/-! ## Values -/

section Values

variable {α σ : Type}

/-- A reader that takes the text of a value and gives `a`, whatever delimited text follows it. -/
def Reads (r : Reader α) (text : Bytes) (a : α) : Prop :=
  ∀ rest, Delimited rest → r.run (text ++ rest) = .ok (a, rest)

theorem delimited_nil : Delimited [] := fun _ member => nomatch member

theorem delimited_comma (rest : Bytes) : Delimited (0x2C :: rest) := fun _ member => by
  cases member
  exact .inl rfl

theorem delimited_brace (rest : Bytes) : Delimited (0x7D :: rest) := fun _ member => by
  cases member
  exact .inr (.inl rfl)

theorem delimited_bracket (rest : Bytes) : Delimited (0x5D :: rest) := fun _ member => by
  cases member
  exact .inr (.inr (.inl rfl))

theorem Blank.delimited {w rest : Bytes} (blank : Blank w) (after : Delimited rest) : Delimited (w ++ rest) := by
  cases w with
  | nil => exact after
  | cons x w =>
    intro b member
    cases member
    exact .inr (.inr (.inr (blank x (.head _))))

end Values

/-! ## Objects -/

section Objects

variable {σ : Type}

/-- A member as the writer lays it out, with what reading it does to the value read so far. -/
structure Written (σ : Type) where
  /-- The key. -/
  key : String
  /-- The text of the value. -/
  text : Bytes
  /-- What reading the value does. -/
  step : σ → σ

/-- A member as written: its key quoted, a colon, a blank gap and its value. -/
def memberText (gap : Bytes) (w : Written σ) : Bytes :=
  Bytes.ofString (quote (Bytes.ofString w.key)) ++ 0x3A :: (gap ++ w.text)

/-- The members after the first, each after a comma and the blank `lead`. -/
def laterMembers (lead gap : Bytes) (ws : List (Written σ)) : Bytes :=
  ws.flatMap fun w => 0x2C :: (lead ++ memberText gap w)

/-- The members of an object, each after the blank `lead`, separated by commas. -/
def membersText (lead gap : Bytes) : List (Written σ) → Bytes
  | [] => []
  | w :: ws => lead ++ memberText gap w ++ laterMembers lead gap ws

/-- An object as written: its members between braces, the closing one after the blank `close`. -/
def objectText (lead gap close : Bytes) (ws : List (Written σ)) : Bytes :=
  0x7B :: (membersText lead gap ws ++ close ++ [0x7D])

/-- A reader's members find a written member by its key, and its reader takes the value. -/
def Finds (members : List (Member σ)) (w : Written σ) : Prop :=
  Solid w.text ∧ ∃ name read, members.find? (fun m => m.1.toList == foldKey (Bytes.ofString w.key)) =
    some (name, read) ∧ ∀ acc, Reads (read acc) w.text (w.step acc)

theorem ofString_quote (b : Bytes) :
    Bytes.ofString (quote b) = 0x22 :: (Utf8.encode ((Utf8.pieces b).flatMap escapePiece) ++ [0x22]) := by
  rw [quote, Bytes.ofString_ofList, Utf8.encode_append, Utf8.encode_cons, Utf8.encode_singleton]
  rfl

theorem solid_quote (b : Bytes) : Solid (Bytes.ofString (quote b)) :=
  ⟨0x22, _, ofString_quote b, by decide⟩

theorem solid_memberText (gap : Bytes) (w : Written σ) : Solid (memberText gap w) :=
  (solid_quote _).append _

variable {members : List (Member σ)}

/-- The first member of an object, or any member once its comma is taken, is read by its key's
member, and the walk goes on with one step of fuel less. -/
theorem run_loop_first (input : Bytes) {lead gap more : Bytes} (leadBlank : Blank lead) (gapBlank : Blank gap)
    {w : Written σ} (found : Finds members w) (after : Delimited more) (fuel : Nat) (acc : σ) :
    (readObject.loop members input (fuel + 1) true acc).run (lead ++ (memberText gap w ++ more)) =
      (readObject.loop members input fuel false (w.step acc)).run more := by
  obtain ⟨solid, name, read, key, reads⟩ := found
  have quoted : readString? (memberText gap w ++ more) = some (Bytes.ofString w.key, 0x3A :: (gap ++ (w.text ++ more))) := by
    rw [memberText, List.append_assoc, readString?_quote, Utf8.sanitize_ofString, List.cons_append, List.append_assoc]
  obtain ⟨text, opens⟩ : ∃ text, memberText gap w ++ more = 0x22 :: text :=
    ⟨_, by rw [memberText, ofString_quote]; rfl⟩
  rw [readObject.loop.eq_2, run_bind_of_run (run_blanks leadBlank ((solid_memberText gap w).append more)),
    opens, run_bind_of_run (run_takeByte_other (by decide) _), ← opens]
  simp only [Bool.false_eq_true, ↓reduceIte]
  rw [run_bind_of_run (run_expect quoted), run_bind_of_run (run_blanks_solid ⟨0x3A, _, rfl, by decide⟩),
    run_bind_of_run (run_takeByte_self _ _)]
  simp only [↓reduceIte]
  rw [run_bind_of_run (run_blanks gapBlank (solid.append more)), key]
  simp only
  rw [run_bind_of_run (run_tryCatch_of_ok (reads acc more after))]

theorem run_loop_comma (input : Bytes) {lead gap more : Bytes} (leadBlank : Blank lead) (gapBlank : Blank gap)
    {w : Written σ} (found : Finds members w) (after : Delimited more) (fuel : Nat) (acc : σ) :
    (readObject.loop members input (fuel + 1) false acc).run (0x2C :: (lead ++ (memberText gap w ++ more))) =
      (readObject.loop members input fuel false (w.step acc)).run more := by
  have first := run_loop_first input blank_nil gapBlank found after fuel acc
  obtain ⟨text, opens⟩ : ∃ text, memberText gap w ++ more = 0x22 :: text :=
    ⟨_, by rw [memberText, ofString_quote]; rfl⟩
  rw [List.nil_append, readObject.loop.eq_2, run_bind_of_run (run_blanks_solid ((solid_memberText gap w).append more)),
    opens, run_bind_of_run (run_takeByte_other (by decide) _), ← opens] at first
  simp only [Bool.false_eq_true, ↓reduceIte] at first
  rw [readObject.loop.eq_2, run_bind_of_run (run_blanks_solid ⟨0x2C, _, rfl, by decide⟩),
    run_bind_of_run (run_takeByte_other (by decide) _)]
  simp only [Bool.false_eq_true, ↓reduceIte]
  rw [run_bind_of_run (run_takeByte_self _ _)]
  simp only [↓reduceIte]
  rw [run_bind_of_run (run_blanks leadBlank ((solid_memberText gap w).append more))]
  exact first

theorem run_loop_close (input : Bytes) {close : Bytes} (closeBlank : Blank close) (fuel : Nat) (first : Bool)
    (acc : σ) (rest : Bytes) :
    (readObject.loop members input (fuel + 1) first acc).run (close ++ 0x7D :: rest) = .ok (acc, rest) := by
  rw [readObject.loop.eq_2, run_bind_of_run (run_blanks closeBlank ⟨0x7D, rest, rfl, by decide⟩),
    run_bind_of_run (run_takeByte_self _ _)]
  rfl

theorem delimited_laterMembers {lead gap close : Bytes} (closeBlank : Blank close) (ws : List (Written σ))
    (rest : Bytes) : Delimited (laterMembers lead gap ws ++ (close ++ 0x7D :: rest)) := by
  cases ws with
  | nil => exact closeBlank.delimited (delimited_brace rest)
  | cons w ws => exact delimited_comma _

theorem length_laterMembers (lead gap : Bytes) (ws : List (Written σ)) :
    ws.length ≤ (laterMembers lead gap ws).length := by
  induction ws with
  | nil => exact Nat.zero_le _
  | cons w ws inductionHypothesis =>
    rw [laterMembers, List.flatMap_cons, ← laterMembers, List.length_append, List.length_cons, List.length_cons]
    omega

theorem run_loop_later (input : Bytes) {lead gap close : Bytes} (leadBlank : Blank lead) (gapBlank : Blank gap)
    (closeBlank : Blank close) :
    ∀ (ws : List (Written σ)) (fuel : Nat) (acc : σ) (rest : Bytes), ws.length < fuel → (∀ w ∈ ws, Finds members w) →
      (readObject.loop members input fuel false acc).run (laterMembers lead gap ws ++ (close ++ 0x7D :: rest)) =
        .ok (ws.foldl (fun acc w => w.step acc) acc, rest)
  | [], fuel + 1, acc, rest, _, _ => run_loop_close input closeBlank fuel false acc rest
  | w :: ws, fuel + 1, acc, rest, enough, found => by
    rw [laterMembers, List.flatMap_cons, ← laterMembers]
    simp only [List.cons_append, List.append_assoc]
    rw [run_loop_comma input leadBlank gapBlank (found w (.head _)) (delimited_laterMembers closeBlank ws rest),
      List.foldl_cons]
    exact run_loop_later input leadBlank gapBlank closeBlank ws fuel (w.step acc) rest
      (by simp only [List.length_cons] at enough; omega) fun v member => found v (.tail _ member)

theorem startsWithNull_cons {x : UInt8} (other : x ≠ 0x6E) (rest : Bytes) :
    startsWithNull (x :: rest) = false := by
  simp [startsWithNull, afterWord?, Bytes.stripPrefix?, ofString_null, List.isPrefixOf, Ne.symm other]

/-- An object laid out with blank leads, gaps and closing is read member by member, whatever
follows it. -/
theorem run_readObject {lead gap close : Bytes} (leadBlank : Blank lead) (gapBlank : Blank gap)
    (closeBlank : Blank close) {ws : List (Written σ)} (found : ∀ w ∈ ws, Finds members w) (init : σ)
    (rest : Bytes) :
    (readObject members init).run (objectText lead gap close ws ++ rest) =
      .ok (ws.foldl (fun acc w => w.step acc) init, rest) := by
  simp only [objectText, List.cons_append, List.append_assoc, List.nil_append]
  rw [readObject, run_bind_of_run (run_takeNull_other (startsWithNull_cons (by decide) _))]
  simp only [Bool.false_eq_true, ↓reduceIte]
  rw [run_bind_of_run (rfl : (get : Reader Bytes).run _ = .ok (_, _)), run_bind_of_run (run_takeByte_self _ _)]
  simp only [↓reduceIte]
  cases ws with
  | nil =>
    rw [membersText, List.nil_append]
    exact run_loop_close _ closeBlank _ true init rest
  | cons w ws =>
    simp only [membersText, List.append_assoc]
    rw [run_loop_first _ leadBlank gapBlank (found w (.head _)) (delimited_laterMembers closeBlank ws rest),
      List.foldl_cons]
    refine run_loop_later _ leadBlank gapBlank closeBlank ws _ (w.step init) rest ?_
      fun v member => found v (.tail _ member)
    have := length_laterMembers lead gap ws
    simp only [List.length_cons, List.length_append]
    omega

end Objects

/-! ## Sides -/

section Sides

/-- A level as written, an object, with the level it stands for. -/
def LevelReads (x : Bytes × Level) : Prop :=
  (∃ body, x.1 = 0x7B :: body) ∧ ∀ old, Reads (readObject levelMembers old) x.1 x.2

/-- The levels after the first, each after a comma and the blank `lead`. -/
def laterItems (lead : Bytes) (xs : List (Bytes × Level)) : Bytes :=
  xs.flatMap fun x => 0x2C :: (lead ++ x.1)

/-- A side as written: its levels between brackets, each after the blank `lead`, separated by
commas, the closing bracket after the blank `close`. -/
def arrayText (lead close : Bytes) : List (Bytes × Level) → Bytes
  | [] => 0x5B :: (close ++ [0x5D])
  | x :: xs => 0x5B :: (lead ++ x.1 ++ laterItems lead xs ++ close ++ [0x5D])

theorem delimited_laterItems {lead close : Bytes} (closeBlank : Blank close) (xs : List (Bytes × Level))
    (rest : Bytes) : Delimited (laterItems lead xs ++ (close ++ 0x5D :: rest)) := by
  cases xs with
  | nil => exact closeBlank.delimited (delimited_bracket rest)
  | cons x xs => exact delimited_comma _

theorem length_laterItems (lead : Bytes) (xs : List (Bytes × Level)) : xs.length ≤ (laterItems lead xs).length := by
  induction xs with
  | nil => exact Nat.zero_le _
  | cons x xs inductionHypothesis =>
    rw [laterItems, List.flatMap_cons, ← laterItems, List.length_append, List.length_cons, List.length_cons]
    omega

variable (olds : List Level)

theorem run_items_close {close : Bytes} (closeBlank : Blank close) (fuel i : Nat) (first : Bool)
    (acc : List Level) (rest : Bytes) :
    (readLevels.items olds (fuel + 1) i first acc).run (close ++ 0x5D :: rest) = .ok (acc.reverse, rest) := by
  rw [readLevels.items.eq_2, run_bind_of_run (run_blanks closeBlank ⟨0x5D, rest, rfl, by decide⟩),
    run_bind_of_run (run_takeByte_self _ _)]
  rfl

theorem run_items_first {lead more : Bytes} (leadBlank : Blank lead) {x : Bytes × Level} (level : LevelReads x)
    (after : Delimited more) (fuel i : Nat) (acc : List Level) :
    (readLevels.items olds (fuel + 1) i true acc).run (lead ++ (x.1 ++ more)) =
      (readLevels.items olds fuel (i + 1) false (x.2 :: acc)).run more := by
  obtain ⟨⟨body, opens⟩, reads⟩ := level
  have solid : Solid (x.1 ++ more) := ⟨0x7B, body ++ more, by rw [opens]; rfl, by decide⟩
  rw [readLevels.items.eq_2, run_bind_of_run (run_blanks leadBlank solid), opens, List.cons_append,
    run_bind_of_run (run_takeByte_other (by decide) _), ← List.cons_append, ← opens]
  simp only [Bool.false_eq_true, ↓reduceIte]
  rw [run_bind_of_run (reads _ more after)]

theorem run_items_comma {lead more : Bytes} (leadBlank : Blank lead) {x : Bytes × Level} (level : LevelReads x)
    (after : Delimited more) (fuel i : Nat) (acc : List Level) :
    (readLevels.items olds (fuel + 1) i false acc).run (0x2C :: (lead ++ (x.1 ++ more))) =
      (readLevels.items olds fuel (i + 1) false (x.2 :: acc)).run more := by
  obtain ⟨⟨body, opens⟩, reads⟩ := level
  have solid : Solid (x.1 ++ more) := ⟨0x7B, body ++ more, by rw [opens]; rfl, by decide⟩
  rw [readLevels.items.eq_2, run_bind_of_run (run_blanks_solid ⟨0x2C, _, rfl, by decide⟩),
    run_bind_of_run (run_takeByte_other (by decide) _)]
  simp only [Bool.false_eq_true, ↓reduceIte]
  rw [run_bind_of_run (run_takeByte_self _ _)]
  simp only [↓reduceIte]
  rw [run_bind_of_run (run_blanks leadBlank solid), run_bind_of_run (rfl : (get : Reader Bytes).run _ = .ok (_, _))]
  have notClosing : ((x.1 ++ more).head? == some 0x5D) = false := by
    rw [opens]
    rfl
  simp only [notClosing, Bool.false_eq_true, ↓reduceIte]
  rw [run_bind_of_run (reads _ more after)]

theorem run_items_later {lead close : Bytes} (leadBlank : Blank lead) (closeBlank : Blank close) :
    ∀ (xs : List (Bytes × Level)) (fuel i : Nat) (acc : List Level) (rest : Bytes), xs.length < fuel →
      (∀ x ∈ xs, LevelReads x) →
      (readLevels.items olds fuel i false acc).run (laterItems lead xs ++ (close ++ 0x5D :: rest)) =
        .ok (acc.reverse ++ xs.map Prod.snd, rest)
  | [], fuel + 1, i, acc, rest, _, _ => by
    rw [List.map_nil, List.append_nil]
    exact run_items_close olds closeBlank fuel i false acc rest
  | x :: xs, fuel + 1, i, acc, rest, enough, levels => by
    rw [laterItems, List.flatMap_cons, ← laterItems]
    simp only [List.cons_append, List.append_assoc]
    rw [run_items_comma olds leadBlank (levels x (.head _)) (delimited_laterItems closeBlank xs rest),
      run_items_later leadBlank closeBlank xs fuel (i + 1) (x.2 :: acc) rest
        (by simp only [List.length_cons] at enough; omega) fun y member => levels y (.tail _ member)]
    simp

theorem run_readLevels {lead close : Bytes} (leadBlank : Blank lead) (closeBlank : Blank close)
    {xs : List (Bytes × Level)} (levels : ∀ x ∈ xs, LevelReads x) (old : Levels) (rest : Bytes) :
    (readLevels old).run (arrayText lead close xs ++ rest) = .ok (some (xs.map Prod.snd), rest) := by
  have opens : ∃ inner, arrayText lead close xs = 0x5B :: inner := by
    cases xs <;> exact ⟨_, rfl⟩
  obtain ⟨inner, opened⟩ := opens
  rw [readLevels, opened, List.cons_append, run_bind_of_run (run_takeNull_other (startsWithNull_cons (by decide) _))]
  simp only [Bool.false_eq_true, ↓reduceIte]
  rw [run_bind_of_run (run_takeByte_self _ _)]
  simp only [↓reduceIte]
  rw [run_bind_of_run (rfl : (get : Reader Bytes).run _ = .ok (_, _))]
  cases xs with
  | nil =>
    cases opened
    rw [List.append_assoc, List.singleton_append, run_bind_of_run (run_items_close _ closeBlank _ _ _ _ _)]
    rfl
  | cons x xs =>
    cases opened
    have fuel : xs.length < (lead ++ x.1 ++ laterItems lead xs ++ close ++ [0x5D] ++ rest).length := by
      have := length_laterItems lead xs
      simp only [List.length_append, List.length_singleton]
      omega
    simp only [List.append_assoc, List.singleton_append] at fuel ⊢
    rw [run_bind_of_run (by
      rw [run_items_first _ leadBlank (levels x (.head _)) (delimited_laterItems closeBlank xs rest)]
      exact run_items_later _ leadBlank closeBlank xs _ _ _ rest fuel fun y member => levels y (.tail _ member))]
    simp

theorem run_readLevels_null (old : Levels) (rest : Bytes) :
    (readLevels old).run (Bytes.ofString "null" ++ rest) = .ok (none, rest) := by
  rw [readLevels, run_bind_of_run (run_takeNull_null rest)]
  rfl

end Sides

end MarketData.Json
