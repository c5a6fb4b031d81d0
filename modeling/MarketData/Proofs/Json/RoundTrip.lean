import MarketData.Proofs.Json.Values

/-!
# The JSON round trip

An entity is written as one object of its layout's keys, in layout order. The writer fails
exactly when a float of the entity is NaN or infinite, and then as out of range
(`encodeSlots_isOk`, `encodeSlots_error`).

Whatever it writes, compact or indented by spaces and tabs, reads back as the entity in normal
form with every text sanitized (`decode_encodeSlots`): each key finds its own slot, whose reader
takes the slot's text whole (`readable_spell`), so the object is read as the empty entity filled
slot by slot. A text is a byte string that need not be UTF-8, and each byte that is no part of
well-formed UTF-8 comes back as U+FFFD, so the round trip is lossless exactly on texts that are
UTF-8: `decode_encode_replaces_invalid_text` reads a source of the single byte `0xFF` back as
the three bytes of U+FFFD.
-/

namespace MarketData

/-- An entity with every text sanitized: each byte that is no part of well-formed UTF-8 replaced
by U+FFFD. -/
def EntityKind.sanitize (k : EntityKind) (v : k.Carrier) : k.Carrier :=
  Layout.fill k.layout (fun slot => slot.shape.sanitize (slot.get v)) v

/-- Reading the sanitized slots of `v` into the empty entity and bringing each slot to normal
form gives `v` sanitized, in normal form. -/
theorem EntityKind.foldl_normalize_fill (k : EntityKind) (v : k.Carrier) :
    k.layout.foldl (fun e slot => slot.set (Json.normalize slot.shape (slot.get e)) e)
        (Layout.fill k.layout (fun slot => slot.shape.sanitize (slot.get v)) k.empty) =
      k.normalize (k.sanitize v) := by
  cases k <;> rfl

namespace Json

/-! ## Writing -/

section Writing

variable {α : Type}

theorem encodeSlots_eq_ok {layout : List (Slot α)} {a : α} {d : Document} :
    encodeSlots layout a = .ok d ↔
      ∃ members, List.Forall₂ (fun slot (m : String × Document) =>
        m.1 = slot.key ∧ encodeValue slot.shape (slot.get a) = .ok m.2) layout members ∧
        d = .object members := by
  unfold encodeSlots
  simp only [bind_eq_ok, mapM_eq_ok, pure_eq_ok]
  constructor
  · rintro ⟨members, mapped, rfl⟩
    refine ⟨members, mapped.imp fun slot m written => ?_, rfl⟩
    obtain ⟨doc, wrote, rfl⟩ := written
    exact ⟨rfl, wrote⟩
  · rintro ⟨members, encoded, rfl⟩
    refine ⟨members, encoded.imp fun slot m written => ⟨m.2, written.2, ?_⟩, rfl⟩
    rw [← written.1]

/-- A layout is written exactly when every float of every slot is finite. -/
theorem encodeSlots_isOk (layout : List (Slot α)) (a : α) :
    (∃ d, encodeSlots layout a = .ok d) ↔
      ∀ slot ∈ layout, ∀ x ∈ slot.shape.floats (slot.get a), x.isFinite = true := by
  have each : ∀ slot : Slot α, (∃ m, (do pure (slot.key, ← encodeValue slot.shape (slot.get a)) :
      Except Failure (String × Document)) = .ok m) ↔ ∀ x ∈ slot.shape.floats (slot.get a), x.isFinite = true := by
    intro slot
    rw [← encodeValue_isOk]
    simp only [bind_eq_ok, pure_eq_ok]
    constructor
    · rintro ⟨_, doc, wrote, _⟩
      exact ⟨doc, wrote⟩
    · rintro ⟨doc, wrote⟩
      exact ⟨_, doc, wrote, rfl⟩
  refine Iff.trans ?_ (mapM_isOk each)
  unfold encodeSlots
  simp only [bind_eq_ok, pure_eq_ok]
  constructor
  · rintro ⟨_, members, mapped, _⟩
    exact ⟨members, mapped⟩
  · rintro ⟨members, mapped⟩
    exact ⟨_, members, mapped, rfl⟩

/-- The only failure of the writer of a layout is `unwritable`. -/
theorem encodeSlots_error {layout : List (Slot α)} {a : α} {f : Failure}
    (refused : encodeSlots layout a = .error f) : f = unwritable := by
  unfold encodeSlots at refused
  rw [bind_eq_error] at refused
  rcases refused with mapped | ⟨_, _, written⟩
  · obtain ⟨slot, _, slotRefused⟩ := mapM_eq_error mapped
    rw [bind_eq_error] at slotRefused
    rcases slotRefused with wrote | ⟨_, _, named⟩
    · exact encodeValue_error _ _ wrote
    · cases named
  · cases written

end Writing

/-! ## Reading -/

section Reading

variable {α : Type} {indent : String}

theorem keyed_slotMembers (k : EntityKind) : Keyed (slotMembers k.layout) := by
  cases k <;> refine ⟨?_, by decide⟩ <;> simp only [Bytes.ofString_eq_encode] <;> decide

/-- Each written slot is found by its key and read whole, and reading the slots in turn stores
each one's value, sanitized. -/
theorem finds_slots (blank : IndentBlank indent) {full : List (Slot α)}
    (optional : ∀ slot ∈ full, slot.shape.optionalScalar = true) (keyed : Keyed (slotMembers full)) (a : α) :
    ∀ {layout : List (Slot α)} {members : List (String × Document)},
      List.Forall₂ (fun slot (m : String × Document) =>
        m.1 = slot.key ∧ encodeValue slot.shape (slot.get a) = .ok m.2) layout members →
      (∀ slot ∈ layout, slot ∈ full) →
      ∃ ws : List (Written α),
        List.Forall₂ (fun w m => w.key = m.1 ∧ w.text = spell indent 1 m.2) ws members ∧
        (∀ w ∈ ws, Finds (slotMembers full) w) ∧
        ∀ init, ws.foldl (fun acc w => w.step acc) init =
          Layout.fill layout (fun slot => slot.shape.sanitize (slot.get a)) init := by
  -- on the slots written so far; each is looked up among the members of the whole layout
  intro layout members encoded
  induction encoded with
  | nil => exact fun _ => ⟨[], .nil, List.forall_mem_nil _, fun _ => rfl⟩
  | @cons slot m layout members named encoded inductionHypothesis =>
    intro within
    obtain ⟨ws, texts, found, fill⟩ := inductionHypothesis fun s member => within s (.tail _ member)
    have inFull := within slot (.head _)
    have readable := readable_spell blank slot.shape (optional slot inFull) 1 named.2
    refine ⟨⟨slot.key, spell indent 1 m.2, slot.set (slot.shape.sanitize (slot.get a))⟩ :: ws,
      .cons ⟨named.1.symm, rfl⟩ texts, List.forall_mem_cons.2 ⟨?_, found⟩, fun init => fill _⟩
    exact keyed.finds (List.mem_map_of_mem inFull) readable.solid
      fun acc => (readable.reads (slot.get acc)).map fun x => slot.set x acc

/-- Whatever the writer writes for an entity reads back as the entity with every text sanitized,
in normal form. -/
theorem decode_encodeSlots (blank : IndentBlank indent) (k : EntityKind) (v : k.Carrier) {d : Document}
    (wrote : encodeSlots k.layout v = .ok d) :
    decode k (Bytes.ofString (d.render indent)) = .ok (k.normalize (k.sanitize v)) := by
  obtain ⟨members, encoded, rfl⟩ := encodeSlots_eq_ok.1 wrote
  obtain ⟨ws, texts, found, fill⟩ := finds_slots blank (EntityKind.optionalScalar_layout k)
    (keyed_slotMembers k) v encoded fun _ member => member
  -- no layout is empty, so neither is the object written for it
  have nonempty : members ≠ [] := by
    rintro rfl
    have none := List.forall₂_nil_right_iff.1 encoded
    cases k <;> exact List.cons_ne_nil _ _ none
  have read := run_readObject_spell blank 0 texts nonempty found k.empty []
  rw [List.append_nil] at read
  rw [decode, ofString_render, skipSpace_solid (solid_spell_object 0 texts nonempty), read]
  simp only [skipSpace, List.dropWhile_nil, List.isEmpty_nil, ↓reduceIte]
  rw [fill, EntityKind.foldl_normalize_fill]

end Reading

/-! ## Entities -/

section Entities

theorem encode_eq_ok {indent : String} {e : Entity} {text : String} :
    encode indent e = .ok text ↔ ∃ d, encodeSlots e.kind.layout e.value = .ok d ∧ text = d.render indent := by
  simp only [encode, bind_eq_ok, pure_eq_ok]
  exact exists_congr fun _ => and_congr_right fun _ => eq_comm

theorem encode_eq_error {indent : String} {e : Entity} {f : Failure} :
    encode indent e = .error f ↔ encodeSlots e.kind.layout e.value = .error f := by
  simp only [encode, bind_eq_error]
  constructor
  · rintro (refused | ⟨_, _, written⟩)
    · exact refused
    · cases written
  · exact .inl

/-- The JSON writer refuses exactly the entities holding a NaN or infinite float, and refuses
them as out of range; whatever it writes, compact or indented by spaces and tabs, reads back as
the entity with every text sanitized, in normal form. -/
theorem encode_fails_iff_and_decode_encode_sanitize (indent : String) (blank : IndentBlank indent)
    (e : Entity) :
    ((∃ f, encode indent e = .error f) ↔ ∃ x ∈ e.floats, x.isNaN = true ∨ x.isInf = true) ∧
      (∀ f, encode indent e = .error f → f = unwritable) ∧
      ∀ text, encode indent e = .ok text →
        decode e.kind (Bytes.ofString text) = .ok (e.kind.normalize (e.kind.sanitize e.value)) := by
  refine ⟨?_, fun f refused => encodeSlots_error (encode_eq_error.1 refused), fun text wrote => ?_⟩
  · simp only [encode_eq_error]
    rw [error_iff_not_ok, encodeSlots_isOk]
    simp only [not_forall, Bool.not_eq_true, F64.isFinite_eq_false_iff, Entity.floats, List.mem_flatMap,
      exists_prop]
    constructor
    · rintro ⟨slot, member, x, within, infinite⟩
      exact ⟨x, ⟨slot, member, within⟩, infinite⟩
    · rintro ⟨x, ⟨slot, member, within⟩, infinite⟩
      exact ⟨slot, member, x, within, infinite⟩
  · obtain ⟨d, slots, rfl⟩ := encode_eq_ok.1 wrote
    exact decode_encodeSlots blank e.kind e.value slots

theorem encode_fails_iff_and_decode_encode_sanitize_tab :
    IndentBlank "\t" ∧
      (((∃ f, encode "\t" ⟨.fundingRate, { source := [0xFF] }⟩ = .error f) ↔
          ∃ x ∈ Entity.floats ⟨.fundingRate, { source := [0xFF] }⟩, x.isNaN = true ∨ x.isInf = true) ∧
        (∀ f, encode "\t" ⟨.fundingRate, { source := [0xFF] }⟩ = .error f → f = unwritable) ∧
        ∀ text, encode "\t" ⟨.fundingRate, { source := [0xFF] }⟩ = .ok text →
          decode .fundingRate (Bytes.ofString text) =
            .ok (EntityKind.normalize .fundingRate (EntityKind.sanitize .fundingRate { source := [0xFF] }))) :=
  have blank : IndentBlank "\t" := by simp [IndentBlank]
  ⟨blank, encode_fails_iff_and_decode_encode_sanitize "\t" blank _⟩

/-- A source of the single byte `0xFF`, which is no UTF-8, is written, and read back as the three
bytes of U+FFFD: the round trip does not give the entity back. -/
theorem decode_encode_replaces_invalid_text :
    ∃ text, encode "" ⟨.fundingRate, { source := [0xFF] }⟩ = .ok text ∧
      decode .fundingRate (Bytes.ofString text) = .ok ({ source := [0xEF, 0xBF, 0xBD] } : FundingRateEntry) ∧
      decode .fundingRate (Bytes.ofString text) ≠ .ok (EntityKind.normalize .fundingRate { source := [0xFF] }) := by
  have finite : ∀ slot ∈ EntityKind.layout .fundingRate,
      ∀ x ∈ slot.shape.floats (slot.get ({ source := [0xFF] } : FundingRateEntry)), x.isFinite = true := by
    decide
  obtain ⟨d, wrote⟩ := (encodeSlots_isOk _ _).2 finite
  have blank : IndentBlank "" := by simp [IndentBlank]
  have invalid : Utf8.sanitize [0xFF] = [0xEF, 0xBF, 0xBD] := by
    rw [Utf8.sanitize, Utf8.runes, Utf8.pieces]
    simp [Utf8.decodeHead?]
    rfl
  have sanitized : EntityKind.sanitize .fundingRate { source := [0xFF] } =
      ({ source := [0xEF, 0xBF, 0xBD] } : FundingRateEntry) := by
    show ({ source := Utf8.sanitize [0xFF], pair := { base := Utf8.sanitize [], quote := Utf8.sanitize [] } } :
      FundingRateEntry) = _
    rw [invalid, ← Utf8.encode_nil, Utf8.sanitize_encode]
  have read := decode_encodeSlots blank .fundingRate { source := [0xFF] } wrote
  rw [sanitized] at read
  refine ⟨d.render "", encode_eq_ok.2 ⟨d, wrote, rfl⟩, read, fun same => ?_⟩
  rw [read] at same
  exact absurd (Except.ok.inj same) (by decide)

end Entities

end Json

end MarketData
