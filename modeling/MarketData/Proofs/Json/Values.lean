import MarketData.Proofs.Enumeration
import MarketData.Proofs.Layout

/-!
# Values of every shape, written and read back

The writer of a shape fails exactly when the value holds a float that is NaN or infinite, and
then with `unwritable` (`encodeValue_isOk`, `encodeValue_error`). Whatever it writes, compact or
indented at any depth, the shape's reader takes whole and gives the value back from any old
value, with every text sanitized: each byte that is no part of well-formed UTF-8 becomes U+FFFD
(`readable_spell`). Objects are read member by member, each member found by its key; a side is
read level by level; an optional value is read from the text the scanner takes for it.
-/

namespace MarketData

namespace Shape

/-- The value a shape reads back as from JSON: every text with its bytes that are no part of
well-formed UTF-8 replaced by U+FFFD. -/
def sanitize : (s : Shape) → s.Value → s.Value
  | .text, v => Utf8.sanitize v
  | .pair, v => { base := Utf8.sanitize v.base, quote := Utf8.sanitize v.quote }
  | .header, v => { v with source := Utf8.sanitize v.source, publisher := Utf8.sanitize v.publisher }
  | .optional s, v => v.map s.sanitize
  | .int, v => v
  | .word, v => v
  | .float, v => v
  | .amount, v => v
  | .ordinal _, v => v
  | .depth, v => v
  | .book, v => v
  | .levels, v => v

/-- A shape written as one token: a string or a number. -/
def isScalar : Shape → Bool
  | .text | .int | .word | .float | .amount | .ordinal _ => true
  | _ => false

/-- Whether a shape is optional only over a scalar. -/
def optionalScalar : Shape → Bool
  | .optional s => s.isScalar
  | _ => true

end Shape

theorem EntityKind.optionalScalar_layout (k : EntityKind) :
    ∀ slot ∈ k.layout, slot.shape.optionalScalar = true := by
  cases k <;> decide

namespace Json

/-! ## Writing -/

section Writing

theorem floatDocument_eq_ok {x : F64} {d : Document} :
    floatDocument x = .ok d ↔ x.isFinite = true ∧ d = .number (floatNotation.render x) := by
  unfold floatDocument
  split
  · rename_i finite
    exact ⟨fun wrote => ⟨finite, (Except.ok.inj wrote).symm⟩, fun ⟨_, same⟩ => by rw [same]⟩
  · rename_i infinite
    exact ⟨fun wrote => (nomatch wrote), fun ⟨finite, _⟩ => absurd finite infinite⟩

theorem floatDocument_error {x : F64} {f : Failure} (refused : floatDocument x = .error f) : f = unwritable := by
  unfold floatDocument at refused
  split at refused
  · cases refused
  · exact (Except.error.inj refused).symm

theorem floatDocument_isOk (x : F64) : (∃ d, floatDocument x = .ok d) ↔ x.isFinite = true := by
  simp only [floatDocument_eq_ok, exists_and_left, exists_eq, and_true]

theorem Levels.forall_floats {P : F64 → Prop} (l : Levels) :
    (∀ y ∈ l.floats, P y) ↔ ∀ x ∈ l.toList, P x.price ∧ P x.quantity := by
  simp only [Levels.floats, List.forall_mem_flatMap, List.forall_mem_cons, List.not_mem_nil,
    IsEmpty.forall_iff, implies_true, and_true]

theorem levelsDocument_isOk (l : Levels) :
    (∃ d, levelsDocument l = .ok d) ↔ ∀ x ∈ l.floats, x.isFinite = true := by
  cases l with
  | none => exact ⟨fun _ => List.forall_mem_nil _, fun _ => ⟨_, rfl⟩⟩
  | some xs =>
    have each : ∀ x : Level, (∃ y, (do
        pure (Document.object [("price", ← floatDocument x.price), ("quantity", ← floatDocument x.quantity)]) :
          Except Failure Document) = .ok y) ↔ x.price.isFinite = true ∧ x.quantity.isFinite = true := by
      intro x
      rw [← floatDocument_isOk, ← floatDocument_isOk]
      simp only [bind_eq_ok, pure_eq_ok]
      constructor
      · rintro ⟨_, p, price, q, quantity, _⟩
        exact ⟨⟨p, price⟩, ⟨q, quantity⟩⟩
      · rintro ⟨⟨p, price⟩, ⟨q, quantity⟩⟩
        exact ⟨_, p, price, q, quantity, rfl⟩
    have written : (∃ d, levelsDocument (some xs) = .ok d) ↔ ∃ items, xs.mapM (fun x => do
        pure (Document.object [("price", ← floatDocument x.price), ("quantity", ← floatDocument x.quantity)]) :
          Level → Except Failure Document) = .ok items := by
      simp only [levelsDocument, bind_eq_ok, pure_eq_ok]
      constructor
      · rintro ⟨_, items, mapped, _⟩
        exact ⟨items, mapped⟩
      · rintro ⟨items, mapped⟩
        exact ⟨_, items, mapped, rfl⟩
    rw [written, mapM_isOk each, Levels.forall_floats]
    rfl

theorem levelsDocument_error {l : Levels} {f : Failure} (refused : levelsDocument l = .error f) :
    f = unwritable := by
  cases l with
  | none => cases refused
  | some xs =>
    simp only [levelsDocument, bind_eq_error] at refused
    rcases refused with items | ⟨_, _, refused⟩
    · obtain ⟨x, _, level⟩ := mapM_eq_error items
      simp only [bind_eq_error] at level
      rcases level with price | ⟨_, _, quantity | ⟨_, _, written⟩⟩
      · exact floatDocument_error price
      · exact floatDocument_error quantity
      · cases written
    · cases refused

/-- A value is written exactly when every float it holds is finite. -/
theorem encodeValue_isOk : ∀ (s : Shape) (v : s.Value),
    (∃ d, encodeValue s v = .ok d) ↔ ∀ x ∈ s.floats v, x.isFinite = true
  | .text, _ | .int, _ | .word, _ | .amount, _ | .ordinal _, _ | .pair, _ | .header, _ =>
    ⟨fun _ => List.forall_mem_nil _, fun _ => ⟨_, rfl⟩⟩
  | .float, v => (floatDocument_isOk v).trans
    ⟨fun finite x member => List.mem_singleton.1 member ▸ finite, fun all => all v (.head _)⟩
  | .depth, v => by
    simp only [encodeValue, bind_eq_ok, pure_eq_ok, Shape.floats, List.mem_cons, List.not_mem_nil,
      or_false, forall_eq_or_imp, forall_eq]
    rw [← floatDocument_isOk, ← floatDocument_isOk, ← floatDocument_isOk]
    constructor
    · rintro ⟨_, p, percentage, b, bid, a, ask, _⟩
      exact ⟨⟨p, percentage⟩, ⟨b, bid⟩, ⟨a, ask⟩⟩
    · rintro ⟨⟨p, percentage⟩, ⟨b, bid⟩, ⟨a, ask⟩⟩
      exact ⟨_, p, percentage, b, bid, a, ask, rfl⟩
  | .book, v => by
    simp only [encodeValue, bind_eq_ok, pure_eq_ok, Shape.floats, List.forall_mem_append]
    rw [← levelsDocument_isOk, ← levelsDocument_isOk]
    constructor
    · rintro ⟨_, b, bids, a, asks, _⟩
      exact ⟨⟨b, bids⟩, ⟨a, asks⟩⟩
    · rintro ⟨⟨b, bids⟩, ⟨a, asks⟩⟩
      exact ⟨_, b, bids, a, asks, rfl⟩
  | .levels, v => levelsDocument_isOk v
  | .optional _, none => ⟨fun _ => List.forall_mem_nil _, fun _ => ⟨_, rfl⟩⟩
  | .optional s, some v => encodeValue_isOk s v

/-- The only failure of the writer is `unwritable`. -/
theorem encodeValue_error : ∀ (s : Shape) (v : s.Value) {f : Failure}, encodeValue s v = .error f → f = unwritable
  | .text, _, _, refused | .int, _, _, refused | .word, _, _, refused | .amount, _, _, refused
  | .ordinal _, _, _, refused | .pair, _, _, refused | .header, _, _, refused => nomatch refused
  | .float, _, _, refused => floatDocument_error refused
  | .depth, _, _, refused => by
    simp only [encodeValue, bind_eq_error] at refused
    rcases refused with percentage | ⟨_, _, bid | ⟨_, _, ask | ⟨_, _, written⟩⟩⟩
    · exact floatDocument_error percentage
    · exact floatDocument_error bid
    · exact floatDocument_error ask
    · cases written
  | .book, _, _, refused => by
    simp only [encodeValue, bind_eq_error] at refused
    rcases refused with bids | ⟨_, _, asks | ⟨_, _, written⟩⟩
    · exact levelsDocument_error bids
    · exact levelsDocument_error asks
    · cases written
  | .levels, _, _, refused => levelsDocument_error refused
  | .optional _, none, _, refused => nomatch refused
  | .optional s, some v, _, refused => encodeValue_error s v refused

end Writing

/-! ## Reading -/

section Reading

variable {α β σ : Type}

theorem Reads.map {r : Reader α} {text : Bytes} {a : α} (reads : Reads r text a) (f : α → β) :
    Reads (r >>= fun x => pure (f x)) text (f a) := by
  intro rest after
  rw [run_bind_of_run (reads rest after)]
  rfl

/-- Members the reader tells apart by key: every key is its own folded form, and no two keys
are the same. -/
structure Keyed (members : List (Member σ)) : Prop where
  folded : ∀ key ∈ members.map Prod.fst, foldKey (Bytes.ofString key) = key.toList
  distinct : (members.map fun m => m.1.toList).Nodup

theorem Keyed.find? : ∀ {members : List (Member σ)}, Keyed members → ∀ {m : Member σ}, m ∈ members →
    members.find? (fun m' => m'.1.toList == foldKey (Bytes.ofString m.1)) = some m
  | first :: others, keyed, m, member => by
    have folded : foldKey (Bytes.ofString m.1) = m.1.toList := keyed.folded m.1 (List.mem_map_of_mem member)
    rw [List.find?_cons]
    rcases List.mem_cons.1 member with rfl | later
    · rw [folded, beq_self_eq_true]
    -- the head holds another key, so the search passes it by
    · have other : first.1.toList ≠ m.1.toList := by
        intro same
        apply (List.nodup_cons.1 keyed.distinct).1
        show first.1.toList ∈ _
        rw [same]
        exact List.mem_map_of_mem later
      rw [folded, beq_eq_false_iff_ne.2 other, ← folded]
      exact Keyed.find? ⟨fun key within => keyed.folded key (List.mem_cons_of_mem _ within),
        (List.nodup_cons.1 keyed.distinct).2⟩ later

theorem Keyed.finds {members : List (Member σ)} (keyed : Keyed members) {key : String} {read : σ → Reader σ}
    (member : (key, read) ∈ members) {text : Bytes} {step : σ → σ} (solid : Solid text)
    (reads : ∀ acc, Reads (read acc) text (step acc)) : Finds members ⟨key, text, step⟩ :=
  ⟨solid, key, read, keyed.find? member, reads⟩

variable {indent : String}

theorem run_readObject_spell (blank : IndentBlank indent) (depth : Nat) {members : List (Member σ)}
    {ws : List (Written σ)} {ms : List (String × Document)}
    (texts : List.Forall₂ (fun w m => w.key = m.1 ∧ w.text = spell indent (depth + 1) m.2) ws ms)
    (nonempty : ms ≠ []) (found : ∀ w ∈ ws, Finds members w) (init : σ) (rest : Bytes) :
    (readObject members init).run (spell indent depth (.object ms) ++ rest) =
      .ok (ws.foldl (fun acc w => w.step acc) init, rest) := by
  rw [spell_object indent depth texts nonempty]
  exact run_readObject (blank_lineBreak blank _) (blank_keyGap indent) (blank_lineBreak blank _) found init rest

theorem opens_spell_object (depth : Nat) {ws : List (Written σ)} {ms : List (String × Document)}
    (texts : List.Forall₂ (fun w m => w.key = m.1 ∧ w.text = spell indent (depth + 1) m.2) ws ms)
    (nonempty : ms ≠ []) : ∃ body, spell indent depth (.object ms) = 0x7B :: body :=
  ⟨_, spell_object indent depth texts nonempty⟩

theorem solid_spell_object (depth : Nat) {ws : List (Written σ)} {ms : List (String × Document)}
    (texts : List.Forall₂ (fun w m => w.key = m.1 ∧ w.text = spell indent (depth + 1) m.2) ws ms)
    (nonempty : ms ≠ []) : Solid (spell indent depth (.object ms)) := by
  obtain ⟨body, opens⟩ := opens_spell_object depth texts nonempty
  exact ⟨0x7B, body, opens, rfl⟩

/-- Text that a shape's reader takes whole, whatever old value it reads over, giving `a`. -/
structure Readable (s : Shape) (text : Bytes) (a : s.Value) : Prop where
  solid : Solid text
  reads : ∀ old, Reads (readValue s old) text a

/-- Text that the scanner of values takes whole, and that is not `null`. -/
structure Scanned (text : Bytes) : Prop where
  token : ∀ rest, Delimited rest → valueToken? (text ++ rest) = some (text, rest)
  notNull : text ≠ Bytes.ofString "null"

theorem scanned_quote (b : Bytes) : Scanned (Bytes.ofString (quote b)) := by
  refine ⟨fun rest _ => valueToken?_quote b rest, fun same => ?_⟩
  rw [ofString_quote, ofString_null] at same
  cases same

theorem scanned_number {t : NumberText} (wf : t.WellFormed) : Scanned (Utf8.encode t.chars) := by
  obtain ⟨x, body, opens, start⟩ := NumberText.chars_head wf
  refine ⟨fun rest after => valueToken?_number wf after, fun same => ?_⟩
  rw [opens, ofString_null] at same
  exact start.ne (by decide) (List.cons.inj same).1

theorem scalar_readable {s : Shape} (scalar : s.isScalar = true) {v : s.Value} {d : Document}
    (wrote : encodeValue s v = .ok d) (depth : Nat) :
    Readable s (spell indent depth d) (s.sanitize v) ∧ Scanned (spell indent depth d) := by
  cases s with
  | text =>
    change Bytes at v
    cases wrote
    rw [spell_string]
    exact ⟨⟨solid_quote v, fun old => reads_text old v⟩, scanned_quote v⟩
  | int =>
    change Int64 at v
    cases wrote
    rw [Document.int, spell_number, ← NumberText.encode_chars_ofInt]
    refine ⟨⟨NumberText.solid (NumberText.wellFormed_ofInt _), fun old => ?_⟩,
      scanned_number (NumberText.wellFormed_ofInt _)⟩
    rw [NumberText.encode_chars_ofInt]
    exact reads_int old v
  | word =>
    change UInt64 at v
    cases wrote
    have spelled : Bytes.ofString (toString v.toNat) = Utf8.encode (NumberText.ofInt v.toNat).chars :=
      (NumberText.encode_chars_ofInt v.toNat).symm
    rw [Document.nat, spell_number, spelled]
    refine ⟨⟨NumberText.solid (NumberText.wellFormed_ofInt _), fun old => ?_⟩,
      scanned_number (NumberText.wellFormed_ofInt _)⟩
    rw [← spelled]
    exact reads_word old v
  | float =>
    change F64 at v
    obtain ⟨finite, rfl⟩ := floatDocument_eq_ok.1 wrote
    obtain ⟨t, wf, text, _⟩ := render_text finite
    rw [spell_number]
    refine ⟨⟨text ▸ NumberText.solid wf, fun old => reads_float old finite⟩, text ▸ scanned_number wf⟩
  | amount =>
    change UInt128 at v
    cases wrote
    rw [Document.text, spell_string]
    exact ⟨⟨solid_quote _, fun old => reads_amount old v⟩, scanned_quote _⟩
  | ordinal e =>
    change Ordinal e at v
    cases wrote
    cases named : v.name? with
    | some n =>
      simp only [Document.text, spell_string]
      exact ⟨⟨solid_quote _, fun old => reads_ordinal_name named old⟩, scanned_quote _⟩
    | none =>
      have spelled : Bytes.ofString (toString v.val.toNat) = Utf8.encode (NumberText.ofInt v.val.toNat).chars :=
        (NumberText.encode_chars_ofInt v.val.toNat).symm
      simp only [Document.nat, spell_number]
      refine ⟨⟨spelled ▸ NumberText.solid (NumberText.wellFormed_ofInt _), fun old => reads_ordinal_number old v⟩,
        spelled ▸ scanned_number (NumberText.wellFormed_ofInt _)⟩
  | pair | depth | book | header | levels | optional _ => cases scalar

/-! ### Objects of fixed members -/

theorem keyed_pairMembers : Keyed pairMembers := by
  refine ⟨?_, by decide⟩
  simp only [Bytes.ofString_eq_encode]
  decide
theorem keyed_depthMembers : Keyed depthMembers := by
  refine ⟨?_, by decide⟩
  simp only [Bytes.ofString_eq_encode]
  decide
theorem keyed_bookMembers : Keyed bookMembers := by
  refine ⟨?_, by decide⟩
  simp only [Bytes.ofString_eq_encode]
  decide
theorem keyed_headerMembers : Keyed headerMembers := by
  refine ⟨?_, by decide⟩
  simp only [Bytes.ofString_eq_encode]
  decide
theorem keyed_levelMembers : Keyed levelMembers := by
  refine ⟨?_, by decide⟩
  simp only [Bytes.ofString_eq_encode]
  decide

theorem solid_render {x : F64} (finite : x.isFinite = true) : Solid (Bytes.ofString (floatNotation.render x)) := by
  obtain ⟨t, wf, text, _⟩ := render_text finite
  exact text ▸ NumberText.solid wf

theorem solid_toString_int (i : Int) : Solid (Bytes.ofString (toString i)) :=
  NumberText.encode_chars_ofInt i ▸ NumberText.solid (NumberText.wellFormed_ofInt i)

theorem readable_pair (blank : IndentBlank indent) (depth : Nat) (v : Pair) :
    Readable .pair (spell indent depth (.object [("base", .string v.base), ("quote", .string v.quote)]))
      (Shape.sanitize .pair v) := by
  let ws : List (Written Pair) :=
    [⟨"base", Bytes.ofString (quote v.base), fun p => { p with base := Utf8.sanitize v.base }⟩,
     ⟨"quote", Bytes.ofString (quote v.quote), fun p => { p with quote := Utf8.sanitize v.quote }⟩]
  have texts : List.Forall₂ (fun w m => w.key = m.1 ∧ w.text = spell indent (depth + 1) m.2) ws
      [("base", .string v.base), ("quote", .string v.quote)] :=
    .cons ⟨rfl, (spell_string _ _ _).symm⟩ (.cons ⟨rfl, (spell_string _ _ _).symm⟩ .nil)
  have found : ∀ w ∈ ws, Finds pairMembers w := by
    refine List.forall_mem_cons.2 ⟨?_, List.forall_mem_cons.2 ⟨?_, List.forall_mem_nil _⟩⟩
    · exact keyed_pairMembers.finds (.head _) (solid_quote _) fun acc => (reads_text acc.base v.base).map _
    · exact keyed_pairMembers.finds (.tail _ (.head _)) (solid_quote _)
        fun acc => (reads_text acc.quote v.quote).map _
  exact ⟨solid_spell_object depth texts (List.cons_ne_nil _ _),
    fun old rest _ => run_readObject_spell blank depth texts (List.cons_ne_nil _ _) found old rest⟩

theorem readable_header (blank : IndentBlank indent) (depth : Nat) (v : Header) :
    Readable .header (spell indent depth (.object [("timestamp", .int v.timestamp.toInt),
      ("source", .string v.source), ("publisher", .string v.publisher)])) (Shape.sanitize .header v) := by
  let ws : List (Written Header) :=
    [⟨"timestamp", Bytes.ofString (toString v.timestamp.toInt), fun h => { h with timestamp := v.timestamp }⟩,
     ⟨"source", Bytes.ofString (quote v.source), fun h => { h with source := Utf8.sanitize v.source }⟩,
     ⟨"publisher", Bytes.ofString (quote v.publisher), fun h => { h with publisher := Utf8.sanitize v.publisher }⟩]
  have texts : List.Forall₂ (fun w m => w.key = m.1 ∧ w.text = spell indent (depth + 1) m.2) ws
      [("timestamp", .int v.timestamp.toInt), ("source", .string v.source), ("publisher", .string v.publisher)] :=
    .cons ⟨rfl, (spell_number _ _ _).symm⟩
      (.cons ⟨rfl, (spell_string _ _ _).symm⟩ (.cons ⟨rfl, (spell_string _ _ _).symm⟩ .nil))
  have found : ∀ w ∈ ws, Finds headerMembers w := by
    refine List.forall_mem_cons.2 ⟨?_, List.forall_mem_cons.2 ⟨?_, List.forall_mem_cons.2 ⟨?_,
      List.forall_mem_nil _⟩⟩⟩
    · exact keyed_headerMembers.finds (.head _) (solid_toString_int _)
        fun acc => (reads_int acc.timestamp v.timestamp).map _
    · exact keyed_headerMembers.finds (.tail _ (.head _)) (solid_quote _)
        fun acc => (reads_text acc.source v.source).map _
    · exact keyed_headerMembers.finds (.tail _ (.tail _ (.head _))) (solid_quote _)
        fun acc => (reads_text acc.publisher v.publisher).map _
  exact ⟨solid_spell_object depth texts (List.cons_ne_nil _ _),
    fun old rest _ => run_readObject_spell blank depth texts (List.cons_ne_nil _ _) found old rest⟩

theorem readable_depth (blank : IndentBlank indent) (depth : Nat) {v : DepthLevel} {d : Document}
    (wrote : encodeValue .depth v = .ok d) : Readable .depth (spell indent depth d) v := by
  simp only [encodeValue, bind_eq_ok, pure_eq_ok, floatDocument_eq_ok] at wrote
  obtain ⟨_, ⟨percentage, rfl⟩, _, ⟨bid, rfl⟩, _, ⟨ask, rfl⟩, rfl⟩ := wrote
  let ws : List (Written DepthLevel) :=
    [⟨"percentage", Bytes.ofString (floatNotation.render v.percentage), fun d => { d with percentage := v.percentage }⟩,
     ⟨"bid", Bytes.ofString (floatNotation.render v.bid), fun d => { d with bid := v.bid }⟩,
     ⟨"ask", Bytes.ofString (floatNotation.render v.ask), fun d => { d with ask := v.ask }⟩]
  have texts : List.Forall₂ (fun w m => w.key = m.1 ∧ w.text = spell indent (depth + 1) m.2) ws
      [("percentage", .number (floatNotation.render v.percentage)), ("bid", .number (floatNotation.render v.bid)),
        ("ask", .number (floatNotation.render v.ask))] :=
    .cons ⟨rfl, (spell_number _ _ _).symm⟩
      (.cons ⟨rfl, (spell_number _ _ _).symm⟩ (.cons ⟨rfl, (spell_number _ _ _).symm⟩ .nil))
  have found : ∀ w ∈ ws, Finds depthMembers w := by
    refine List.forall_mem_cons.2 ⟨?_, List.forall_mem_cons.2 ⟨?_, List.forall_mem_cons.2 ⟨?_,
      List.forall_mem_nil _⟩⟩⟩
    · exact keyed_depthMembers.finds (.head _) (solid_render percentage)
        fun acc => (reads_float acc.percentage percentage).map _
    · exact keyed_depthMembers.finds (.tail _ (.head _)) (solid_render bid)
        fun acc => (reads_float acc.bid bid).map _
    · exact keyed_depthMembers.finds (.tail _ (.tail _ (.head _))) (solid_render ask)
        fun acc => (reads_float acc.ask ask).map _
  exact ⟨solid_spell_object depth texts (List.cons_ne_nil _ _),
    fun old rest _ => run_readObject_spell blank depth texts (List.cons_ne_nil _ _) found old rest⟩

theorem levelReads_spell (blank : IndentBlank indent) (depth : Nat) {x : Level} {d : Document}
    (wrote : (do pure (Document.object [("price", ← floatDocument x.price), ("quantity", ← floatDocument x.quantity)]) :
      Except Failure Document) = .ok d) :
    LevelReads (spell indent depth d, x) := by
  simp only [bind_eq_ok, pure_eq_ok, floatDocument_eq_ok] at wrote
  obtain ⟨_, ⟨price, rfl⟩, _, ⟨quantity, rfl⟩, rfl⟩ := wrote
  let ws : List (Written Level) :=
    [⟨"price", Bytes.ofString (floatNotation.render x.price), fun l => { l with price := x.price }⟩,
     ⟨"quantity", Bytes.ofString (floatNotation.render x.quantity), fun l => { l with quantity := x.quantity }⟩]
  have texts : List.Forall₂ (fun w m => w.key = m.1 ∧ w.text = spell indent (depth + 1) m.2) ws
      [("price", .number (floatNotation.render x.price)), ("quantity", .number (floatNotation.render x.quantity))] :=
    .cons ⟨rfl, (spell_number _ _ _).symm⟩ (.cons ⟨rfl, (spell_number _ _ _).symm⟩ .nil)
  have found : ∀ w ∈ ws, Finds levelMembers w := by
    refine List.forall_mem_cons.2 ⟨?_, List.forall_mem_cons.2 ⟨?_, List.forall_mem_nil _⟩⟩
    · exact keyed_levelMembers.finds (.head _) (solid_render price)
        fun acc => (reads_float acc.price price).map _
    · exact keyed_levelMembers.finds (.tail _ (.head _)) (solid_render quantity)
        fun acc => (reads_float acc.quantity quantity).map _
  exact ⟨opens_spell_object depth texts (List.cons_ne_nil _ _),
    fun old rest _ => run_readObject_spell blank depth texts (List.cons_ne_nil _ _) found old rest⟩

theorem spelled_levels (blank : IndentBlank indent) (depth : Nat) : ∀ {xs : List Level} {items : List Document},
    List.Forall₂ (fun x item => (do
      pure (Document.object [("price", ← floatDocument x.price), ("quantity", ← floatDocument x.quantity)]) :
        Except Failure Document) = .ok item) xs items →
    ∃ ys : List (Bytes × Level), List.Forall₂ (fun y item => y.1 = spell indent depth item) ys items ∧
      ys.map Prod.snd = xs ∧ ∀ y ∈ ys, LevelReads y
  | _, _, .nil => ⟨[], .nil, rfl, List.forall_mem_nil _⟩
  | x :: _, item :: _, .cons first rest => by
    obtain ⟨ys, texts, values, reads⟩ := spelled_levels blank depth rest
    exact ⟨(spell indent depth item, x) :: ys, .cons rfl texts, by rw [List.map_cons, values],
      List.forall_mem_cons.2 ⟨levelReads_spell blank depth first, reads⟩⟩

theorem readable_levels (blank : IndentBlank indent) (depth : Nat) {l : Levels} {d : Document}
    (wrote : levelsDocument l = .ok d) : Readable .levels (spell indent depth d) l := by
  cases l with
  | none =>
    cases wrote
    rw [spell_null]
    exact ⟨⟨0x6E, _, by rw [ofString_null], rfl⟩, fun old rest _ => run_readLevels_null old rest⟩
  | some xs =>
    simp only [levelsDocument, bind_eq_ok, pure_eq_ok] at wrote
    obtain ⟨items, mapped, rfl⟩ := wrote
    obtain ⟨ys, texts, rfl, levels⟩ := spelled_levels blank (depth + 1) (mapM_eq_ok.1 mapped)
    cases texts with
    | nil =>
      -- an empty side is written with no line break before its closing bracket
      rw [spell_array_nil]
      exact ⟨⟨0x5B, _, rfl, rfl⟩, fun old rest _ =>
        run_readLevels (blank_lineBreak blank _) blank_nil levels old rest⟩
    | cons first rest =>
      rw [spell_array indent depth (.cons first rest)]
      exact ⟨⟨0x5B, _, rfl, rfl⟩, fun old more _ =>
        run_readLevels (blank_lineBreak blank _) (blank_lineBreak blank _) levels old more⟩

theorem readable_book (blank : IndentBlank indent) (depth : Nat) {v : Orderbook} {d : Document}
    (wrote : encodeValue .book v = .ok d) : Readable .book (spell indent depth d) v := by
  simp only [encodeValue, bind_eq_ok, pure_eq_ok] at wrote
  obtain ⟨bidsDocument, bidsWritten, asksDocument, asksWritten, rfl⟩ := wrote
  have bids := readable_levels blank (depth + 1) bidsWritten
  have asks := readable_levels blank (depth + 1) asksWritten
  let ws : List (Written Orderbook) :=
    [⟨"update_id", Bytes.ofString (toString v.updateId.toNat), fun b => { b with updateId := v.updateId }⟩,
     ⟨"bids", spell indent (depth + 1) bidsDocument, fun b => { b with bids := v.bids }⟩,
     ⟨"asks", spell indent (depth + 1) asksDocument, fun b => { b with asks := v.asks }⟩]
  have texts : List.Forall₂ (fun w m => w.key = m.1 ∧ w.text = spell indent (depth + 1) m.2) ws
      [("update_id", .nat v.updateId.toNat), ("bids", bidsDocument), ("asks", asksDocument)] :=
    .cons ⟨rfl, (spell_number _ _ _).symm⟩ (.cons ⟨rfl, rfl⟩ (.cons ⟨rfl, rfl⟩ .nil))
  have found : ∀ w ∈ ws, Finds bookMembers w := by
    refine List.forall_mem_cons.2 ⟨?_, List.forall_mem_cons.2 ⟨?_, List.forall_mem_cons.2 ⟨?_,
      List.forall_mem_nil _⟩⟩⟩
    · exact keyed_bookMembers.finds (.head _) (solid_toString_int v.updateId.toNat)
        fun acc => (reads_word acc.updateId v.updateId).map _
    · exact keyed_bookMembers.finds (.tail _ (.head _)) bids.solid fun acc => (bids.reads acc.bids).map _
    · exact keyed_bookMembers.finds (.tail _ (.tail _ (.head _))) asks.solid fun acc => (asks.reads acc.asks).map _
  exact ⟨solid_spell_object depth texts (List.cons_ne_nil _ _),
    fun old rest _ => run_readObject_spell blank depth texts (List.cons_ne_nil _ _) found old rest⟩

/-! ### Optional values and every shape -/

/-- An optional scalar is read from the token the scanner takes for it: `null` is absent, and any
other token is read on its own from the zero value. -/
theorem readable_optional {s : Shape} (scalar : s.isScalar = true) (depth : Nat) {v : Option s.Value}
    {d : Document} (wrote : encodeValue (.optional s) v = .ok d) :
    Readable (.optional s) (spell indent depth d) (Shape.sanitize (.optional s) v) := by
  cases v with
  | none =>
    cases wrote
    rw [spell_null]
    refine ⟨⟨0x6E, _, by rw [ofString_null], rfl⟩, fun old rest _ => ?_⟩
    simp only [readValue]
    rw [run_bind_of_run (run_expect (valueToken?_null rest))]
    simp only [beq_self_eq_true, ↓reduceIte]
    rfl
  | some v =>
    obtain ⟨readable, scanned⟩ := scalar_readable scalar wrote depth
    refine ⟨readable.solid, fun old rest after => ?_⟩
    -- the token is read again on its own, with nothing after it
    have whole := readable.reads s.zero [] delimited_nil
    rw [List.append_nil] at whole
    simp only [readValue]
    rw [run_bind_of_run (run_expect (scanned.token rest after))]
    simp only [beq_eq_false_iff_ne.2 scanned.notNull, Bool.false_eq_true, ↓reduceIte,
      skipSpace_solid readable.solid, whole]
    rfl

/-- Whatever the writer writes for a value, compact or indented at any depth, the shape's reader
takes whole and gives back the value with every text sanitized. -/
theorem readable_spell (blank : IndentBlank indent) (s : Shape) (optional : s.optionalScalar = true)
    (depth : Nat) {v : s.Value} {d : Document} (wrote : encodeValue s v = .ok d) :
    Readable s (spell indent depth d) (s.sanitize v) := by
  cases s with
  | text | int | word | float | amount | ordinal _ => exact (scalar_readable rfl wrote depth).1
  | pair =>
    cases wrote
    exact readable_pair blank depth v
  | header =>
    cases wrote
    exact readable_header blank depth v
  | depth => exact readable_depth blank depth wrote
  | book => exact readable_book blank depth wrote
  | levels => exact readable_levels blank depth wrote
  | optional s => exact readable_optional optional depth wrote

end Reading

end Json

end MarketData
