import MarketData.Proofs.Protobuf.Walk

/-!
# Later fields win

A protobuf reader takes the fields of a message as they come, so messages laid side by side read
as one message: every field stores its value over what an earlier field of its number stored,
except that the levels of a legacy book's sides are appended. An entity's message writes every
field, zeros and the arm of every optional field included, so it overrides all that an earlier
message of its kind left, save those sides. Fields of numbers that are not in the entity's table
are skipped wherever they stand (`decode_later_wins`).

The proof reads the fields of an entity's message on top of any value (`readOnto`): each slot ends
up holding the normal form of what was written for it, except a side, which gets the levels
written appended to its own.
-/

namespace MarketData.Protobuf

open Schema (Catalog)

/-! ## What a message overrides -/

/-- The numbers of the rows of the table named `name`; none when there is no such table. -/
def tableNumbers (c : Catalog) (name : String) : List Nat :=
  match c.table? name with
  | some t => t.fields.map (·.id.toNat)
  | none => []

theorem tableNumbers_live (k : EntityKind) :
    tableNumbers Schema.live k.name = k.layout.flatMap slotNumbers := by
  cases k <;> decide

/-- The entity read from the message of `a` followed by that of `b`: `b`, with the levels of each
side of a legacy book appended to those of `a`. -/
def overlay : (k : EntityKind) → k.Carrier → k.Carrier → k.Carrier
  | .snapshot, a, b =>
    ({ b with bids := some (a.bids.toList ++ b.bids.toList), asks := some (a.asks.toList ++ b.asks.toList) } :
      BookEntry)
  | .update, a, b =>
    ({ b with bids := some (a.bids.toList ++ b.bids.toList), asks := some (a.asks.toList ++ b.asks.toList) } :
      BookEntry)
  | .price, _, b => b
  | .orderbook, _, b => b
  | .depth, _, b => b
  | .fundingRate, _, b => b
  | .trade, _, b => b
  | .volume, _, b => b
  | .openInterest, _, b => b
  | .position, _, b => b
  | .globalExposure, _, b => b
  | .market, _, b => b
  | .legacyDepth, _, b => b

/-! ## Entities -/

theorem splits_encode (e : Entity) (short : (encode e).length < 2 ^ 64) :
    Splits (encode e) (layoutFields e.kind.layout e.value) := by
  obtain ⟨-, inRange⟩ := layout_numbered e.kind
  have numbered : ∀ f ∈ layoutFields e.kind.layout e.value, 0 < f.num ∧ f.num < 2 ^ 31 := by
    intro f member
    obtain ⟨s, within, own⟩ := List.mem_flatMap.1 member
    exact inRange _ (List.mem_flatMap.2
      ⟨s, within, num_mem_slotNumbers (EntityKind.optionalPlain_layout _ s within) _ f own⟩)
  rw [encode, encodeSlots_eq] at short ⊢
  exact fieldsRead_eq_ok_iff.1 (fieldsRead_encode numbered short)

theorem length_layoutFields {e : Entity} (short : (encode e).length < 2 ^ 64) :
    ((layoutFields e.kind.layout e.value).flatMap Field.encode).length < 2 ^ 64 := by
  rwa [encode, encodeSlots_eq] at short

theorem foldlM_layoutFields_empty (e : Entity) (short : (encode e).length < 2 ^ 64) :
    (layoutFields e.kind.layout e.value).foldlM
        (fun a f => e.kind.layout.foldlM (fun a s => absorb f a s) a) e.kind.empty =
      .ok (e.kind.normalize e.value) := by
  obtain ⟨nodup, -⟩ := layout_numbered e.kind
  rw [foldlM_layoutFields nodup e.value (fun _ member => member) (EntityKind.layout_lawful _)
    (EntityKind.optionalPlain_layout _) e.kind.empty (EntityKind.get_empty _) (length_layoutFields short),
    EntityKind.fill_normal]

theorem foldlM_unknown {k : EntityKind} {fs : List Field}
    (unknown : ∀ f ∈ fs, f.num ∉ tableNumbers Schema.live k.name) (a : k.Carrier) :
    fs.foldlM (fun a f => k.layout.foldlM (fun a s => absorb f a s) a) a = .ok a := by
  induction fs with
  | nil => rfl
  | cons f fs inductionHypothesis =>
    have other : ∀ s ∈ k.layout, f.num ∉ slotNumbers s := by
      intro s within taken
      apply unknown f (.head _)
      rw [tableNumbers_live]
      exact List.mem_flatMap.2 ⟨s, within, taken⟩
    rw [List.foldlM_cons, foldlM_absorb_of_not_mem other, ok_bind]
    exact inductionHypothesis fun g member => unknown g (.tail _ member)

theorem foldl_appendLevel_ofList (xs ys : List Level) :
    ys.foldl appendLevel (Levels.ofList xs) = Levels.ofList (xs ++ ys) := by
  cases ys with
  | nil => rw [List.foldl_nil, List.append_nil]
  | cons y ys =>
    rw [foldl_appendLevel _ _ (List.cons_ne_nil y ys), Levels.toList_ofList]
    cases joined : xs ++ y :: ys with
    | nil => exact absurd joined (by simp)
    | cons z zs => rfl

theorem readOnto_levels (old new : Levels) :
    readOnto .levels old.normal new = Levels.normal (some (old.toList ++ new.toList)) :=
  foldl_appendLevel_ofList old.toList new.toList

/-- Every slot of an entity read on top of the normal form of `a` ends as in the entity read from
`a`'s message followed by `b`'s. -/
theorem fill_readOnto (k : EntityKind) (a b : k.Carrier) :
    Layout.fill k.layout (fun s => readOnto s.shape (s.get (k.normalize a)) (s.get b)) (k.normalize a) =
      k.normalize (overlay k a b) := by
  cases k
  case snapshot | update =>
    change BookEntry at a b
    dsimp only [Layout.fill, EntityKind.layout, BookEntry.layout, List.foldl, EntityKind.normalize, overlay]
    rw [readOnto_levels, readOnto_levels]
    rfl
  all_goals rfl

theorem foldlM_layoutFields_overlay (k : EntityKind) (a b : k.Carrier)
    (short : (encode ⟨k, b⟩).length < 2 ^ 64) :
    (layoutFields k.layout b).foldlM (fun a f => k.layout.foldlM (fun a s => absorb f a s) a)
        (k.normalize a) = .ok (k.normalize (overlay k a b)) := by
  obtain ⟨nodup, -⟩ := layout_numbered k
  rw [foldlM_layoutFields_onto nodup b (k.normalize a) (fun _ member => member) (EntityKind.layout_lawful _)
    (EntityKind.optionalPlain_layout _) (k.normalize a) (fun _ _ => rfl) (length_layoutFields short),
    fill_readOnto]

/-- Protobuf reading is last-writer-wins over concatenation. Any well-formed run of fields whose
numbers the entity's table does not have is skipped; read after it, the message of `b` gives `b`
in normal form. Read after the message of `a` and such a run, it gives `b` again, its optional
fields, pairs, amounts, headers and books included, except that the levels of each side of a
legacy book come after those of `a`. -/
theorem decode_later_wins (k : EntityKind) (a b : k.Carrier) {u : Bytes} {fs : List Field}
    (wellFormed : fieldsRead u = .ok fs) (unknown : ∀ f ∈ fs, f.num ∉ tableNumbers Schema.live k.name)
    (shortA : (encode ⟨k, a⟩).length < 2 ^ 64) (shortB : (encode ⟨k, b⟩).length < 2 ^ 64) :
    decode k (u ++ encode ⟨k, b⟩) = .ok (k.normalize b) ∧
      decode k (encode ⟨k, a⟩ ++ u ++ encode ⟨k, b⟩) = .ok (k.normalize (overlay k a b)) := by
  have split := fieldsRead_eq_ok_iff.1 wellFormed
  have splitA := splits_encode ⟨k, a⟩ shortA
  have splitB := splits_encode ⟨k, b⟩ shortB
  constructor
  · rw [decode, decodeSlots, foldFields_eq_ok_iff]
    refine ⟨fs ++ layoutFields k.layout b, split.append splitB, ?_⟩
    rw [List.foldlM_append, foldlM_unknown unknown, ok_bind]
    exact foldlM_layoutFields_empty ⟨k, b⟩ shortB
  · rw [decode, decodeSlots, foldFields_eq_ok_iff]
    refine ⟨layoutFields k.layout a ++ fs ++ layoutFields k.layout b, (splitA.append split).append splitB, ?_⟩
    rw [List.foldlM_append, List.foldlM_append, foldlM_layoutFields_empty ⟨k, a⟩ shortA, ok_bind,
      foldlM_unknown unknown, ok_bind]
    exact foldlM_layoutFields_overlay k a b shortB

/-- Two unknown fields, a two-byte varint and a byte string, ahead of a legacy book, and between
two books that differ in every slot: the later book wins, and the sides of the earlier one come
first. -/
theorem decode_books_around_unknown_fields :
    decode .snapshot (([⟨7, .varint 300⟩, ⟨12, .bytes [1, 2, 3]⟩] : List Field).flatMap Field.encode ++
        encode ⟨.snapshot,
          { base := ⟨2, [0x62], []⟩, pair := ⟨[0x45], [0x55]⟩, lastUpdateId := 9,
            bids := some [⟨⟨0x3FE0000000000000⟩, ⟨0x4000000000000000⟩⟩] }⟩) =
        .ok
          { base := ⟨2, [0x62], []⟩, pair := ⟨[0x45], [0x55]⟩, lastUpdateId := 9,
            bids := some [⟨⟨0x3FE0000000000000⟩, ⟨0x4000000000000000⟩⟩] } ∧
      decode .snapshot (encode ⟨.snapshot,
          { base := ⟨1, [0x61], [0x70]⟩, instrumentType := ⟨1⟩, pair := ⟨[0x42], [0x55]⟩,
            lastUpdateId := 4, bids := some [⟨⟨0x3FF0000000000000⟩, ⟨0x3FF0000000000000⟩⟩],
            asks := some [⟨⟨0x4000000000000000⟩, ⟨0x3FF0000000000000⟩⟩] }⟩ ++
          ([⟨7, .varint 300⟩, ⟨12, .bytes [1, 2, 3]⟩] : List Field).flatMap Field.encode ++
          encode ⟨.snapshot,
          { base := ⟨2, [0x62], []⟩, pair := ⟨[0x45], [0x55]⟩, lastUpdateId := 9,
            bids := some [⟨⟨0x3FE0000000000000⟩, ⟨0x4000000000000000⟩⟩] }⟩) =
        .ok
          { base := ⟨2, [0x62], []⟩, pair := ⟨[0x45], [0x55]⟩, lastUpdateId := 9,
            bids := some [⟨⟨0x3FF0000000000000⟩, ⟨0x3FF0000000000000⟩⟩,
              ⟨⟨0x3FE0000000000000⟩, ⟨0x4000000000000000⟩⟩],
            asks := some [⟨⟨0x4000000000000000⟩, ⟨0x3FF0000000000000⟩⟩] } := by
  have wellFormed : fieldsRead (([⟨7, .varint 300⟩, ⟨12, .bytes [1, 2, 3]⟩] : List Field).flatMap Field.encode) =
      .ok ([⟨7, .varint 300⟩, ⟨12, .bytes [1, 2, 3]⟩] : List Field) :=
    fieldsRead_encode (by decide) (by decide +kernel)
  have unknown : ∀ f ∈ ([⟨7, .varint 300⟩, ⟨12, .bytes [1, 2, 3]⟩] : List Field),
      f.num ∉ tableNumbers Schema.live EntityKind.snapshot.name := by
    decide
  have shortA : (encode ⟨.snapshot,
      { base := ⟨1, [0x61], [0x70]⟩, instrumentType := ⟨1⟩, pair := ⟨[0x42], [0x55]⟩,
        lastUpdateId := 4, bids := some [⟨⟨0x3FF0000000000000⟩, ⟨0x3FF0000000000000⟩⟩],
        asks := some [⟨⟨0x4000000000000000⟩, ⟨0x3FF0000000000000⟩⟩] }⟩).length < 2 ^ 64 := by
    decide +kernel
  have shortB : (encode ⟨.snapshot,
      { base := ⟨2, [0x62], []⟩, pair := ⟨[0x45], [0x55]⟩, lastUpdateId := 9,
        bids := some [⟨⟨0x3FE0000000000000⟩, ⟨0x4000000000000000⟩⟩] }⟩).length < 2 ^ 64 := by
    decide +kernel
  exact decode_later_wins .snapshot _ _ wellFormed unknown shortA shortB

end MarketData.Protobuf
