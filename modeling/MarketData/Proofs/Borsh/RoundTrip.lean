import MarketData.Proofs.Borsh.Writing

/-!
# The borsh round trip

Every value the writer takes is read back as its normal form, and reading accepts nothing but
what the writer produces.

* The reader of a shape parses the writer's bytes for every writable value whose lengths fit in
  32 bits (`parses_decodeValue`), and so does the reader of a layout (`parses_decodeSlots`).
* Whatever a reader accepts, the writer writes back byte for byte (`decodeValue_sound`,
  `decodeSlots_sound`).

For an entity this gives `encode_fails_iff_and_decode_encode`: the writer fails exactly on an
ordinal above 255 or a NaN float, always as out of range, and otherwise its bytes read back as
the normal form. It also gives `decode_canonical`: bytes that decode are the encoding of what
they decode to, and the encoding of a value is read only whole, so that neither a proper prefix
of it nor the encoding followed by more bytes is accepted. A length is written in 32 bits, and
`decode_accepts_prefix_of_wrapped_length` shows that the second half fails for a text of 2^32
bytes.
-/

namespace MarketData.Borsh

/-! ## Values -/

theorem parses_decodeValue_book (v : Orderbook) {w : Bytes}
    (wrote : encodeValue .book v = .ok w) (short : ∀ n ∈ Shape.lengths .book v, n < 2 ^ 32) :
    Parses (decodeValue .book) w (Shape.normal .book v) (∀ n ∈ Shape.lengths .book v, n ≤ 0x7FFFFFFF) := by
  simp only [encodeValue, bind_eq_ok, pure_eq_ok, levels_eq_ok] at wrote
  obtain ⟨_, ⟨bidNumbers, rfl⟩, _, ⟨askNumbers, rfl⟩, rfl⟩ := wrote
  exact Parses.cast
    (Parses.bind (parses_readWord v.updateId) (Parses.bind
      (parses_readLevels bidNumbers (short _ (by simp [Shape.lengths])))
      (Parses.bind (parses_readLevels askNumbers (short _ (by simp [Shape.lengths])))
        (parses_pure _))))
    (by simp) (by simp [Shape.lengths])

theorem parses_decodeValue_header (v : Header) {w : Bytes}
    (wrote : encodeValue .header v = .ok w) (short : ∀ n ∈ Shape.lengths .header v, n < 2 ^ 32) :
    Parses (decodeValue .header) w v (∀ n ∈ Shape.lengths .header v, n ≤ 0x7FFFFFFF) := by
  cases wrote
  exact Parses.cast
    (Parses.bind (parses_readWord v.timestamp.toUInt64) (Parses.bind
      (parses_readText (short _ (by simp [Shape.lengths])))
      (Parses.bind (parses_readText (short _ (by simp [Shape.lengths]))) (parses_pure _))))
    (by simp) (by simp [Shape.lengths])

/-- The reader of a shape parses what the writer wrote, and gives the value's normal form. -/
theorem parses_decodeValue (s : Shape) (plain : s.optionalPlain = true) (v : s.Value) {w : Bytes}
    (wrote : encodeValue s v = .ok w) (short : ∀ n ∈ s.lengths v, n < 2 ^ 32) :
    Parses (decodeValue s) w (s.normal v) (∀ n ∈ s.lengths v, n ≤ 0x7FFFFFFF) := by
  induction s generalizing w with
  | text =>
    change Bytes at v
    cases wrote
    exact (parses_readText (short _ (.head _))).cast rfl (by simp [Shape.lengths])
  | int =>
    cases wrote
    exact ((parses_readWord _).map_pure _ (Int64.toInt64_toUInt64 v)).cast rfl (by simp [Shape.lengths])
  | word =>
    cases wrote
    exact (parses_readWord v).cast rfl (by simp [Shape.lengths])
  | float =>
    change F64 at v
    obtain ⟨number, rfl⟩ := float_eq_ok.1 wrote
    exact (parses_readFloat number).cast rfl (by simp [Shape.lengths])
  | amount =>
    cases wrote
    exact Parses.cast
      (Parses.bind (parses_readWord _) (Parses.bind (parses_readWord _) (parses_pure _)))
      (by simp) (by simp [Shape.lengths])
  | ordinal e =>
    simp only [encodeValue] at wrote
    by_cases small : v.val.toNat < 256
    · rw [if_pos small] at wrote
      cases wrote
      have byte : v.val.toUInt8.toUInt32 = v.val := by
        apply UInt32.toNat_inj.1
        simp
        omega
      exact ((parses_readByte _).map_pure (fun b => (⟨b.toUInt32⟩ : Ordinal e))
        (congrArg Ordinal.mk byte)).cast rfl (by simp [Shape.lengths])
    · rw [if_neg small] at wrote
      cases wrote
  | pair =>
    cases wrote
    exact Parses.cast
      (Parses.bind (parses_readText (short _ (by simp [Shape.lengths])))
        (Parses.bind (parses_readText (short _ (by simp [Shape.lengths]))) (parses_pure _)))
      (by simp) (by simp [Shape.lengths])
  | depth =>
    simp only [encodeValue, bind_eq_ok, pure_eq_ok, float_eq_ok] at wrote
    obtain ⟨_, ⟨percentage, rfl⟩, _, ⟨bid, rfl⟩, _, ⟨ask, rfl⟩, rfl⟩ := wrote
    exact Parses.cast
      (Parses.bind (parses_readFloat percentage) (Parses.bind (parses_readFloat bid)
        (Parses.bind (parses_readFloat ask) (parses_pure _))))
      (by simp) (by simp [Shape.lengths])
  | book => exact parses_decodeValue_book v wrote short
  | header => exact parses_decodeValue_header v wrote short
  | levels =>
    change Levels at v
    obtain ⟨numbers, rfl⟩ := levels_eq_ok.1 wrote
    exact (parses_readLevels numbers (short _ (.head _))).cast rfl (by simp [Shape.lengths])
  | optional s inductionHypothesis =>
    cases v with
    | none =>
      cases wrote
      exact Parses.cast (Parses.bind (parses_readByte 0) (parses_pure none)) rfl
        (by simp [Shape.lengths])
    | some v =>
      simp only [encodeValue, bind_eq_ok, pure_eq_ok] at wrote
      obtain ⟨w, payload, rfl⟩ := wrote
      have inner := inductionHypothesis (Shape.optionalPlain_of_isPlain plain) v payload short
      rw [Shape.normal_of_isPlain plain] at inner
      exact Parses.cast (Parses.bind (parses_readByte 1) (inner.map_pure some rfl)) rfl
        (by simp [Shape.lengths])

/-! ## Layouts and entities -/

section Layouts

variable {α : Type}

/-- The reader of a layout parses the parts the writer wrote for its slots, one after the other,
and stores the normal value of each slot in turn. The induction runs over the written parts. -/
theorem parses_decodeSlots {layout : List (Slot α)} {v : α} {parts : List Bytes}
    (wrote : List.Forall₂ (fun slot w => encodeValue slot.shape (slot.get v) = .ok w) layout parts)
    (plain : ∀ slot ∈ layout, slot.shape.optionalPlain = true)
    (short : ∀ slot ∈ layout, ∀ n ∈ slot.shape.lengths (slot.get v), n < 2 ^ 32) (init : α) :
    Parses (decodeSlots layout init) parts.flatten
      (Layout.fill layout (fun slot => slot.shape.normal (slot.get v)) init)
      (∀ slot ∈ layout, ∀ n ∈ slot.shape.lengths (slot.get v), n ≤ 0x7FFFFFFF) := by
  induction wrote generalizing init with
  | nil => exact (parses_pure init).cast rfl (by simp)
  | @cons slot w layout parts first rest inductionHypothesis =>
    have head := (parses_decodeValue slot.shape (plain slot (.head _)) (slot.get v) first
      (short slot (.head _))).map_pure (fun x => slot.set x init) rfl
    have tail := inductionHypothesis (fun t member => plain t (.tail _ member))
      (fun t member => short t (.tail _ member)) (slot.set (slot.shape.normal (slot.get v)) init)
    exact (head.bind tail).cast List.flatten_cons.symm (by rw [List.forall_mem_cons])

end Layouts

theorem parses_decode {e : Entity} {b : Bytes} (wrote : encode e = .ok b)
    (short : ∀ n ∈ e.lengths, n < 2 ^ 32) :
    Parses (decodeSlots e.kind.layout e.kind.empty) b (e.kind.normalize e.value)
      (∀ n ∈ e.lengths, n ≤ 0x7FFFFFFF) := by
  obtain ⟨parts, written, rfl⟩ := encodeSlots_eq_ok.1 wrote
  have slotsShort : ∀ slot ∈ e.kind.layout, ∀ n ∈ slot.shape.lengths (slot.get e.value), n < 2 ^ 32 :=
    fun slot member n within => short n (List.mem_flatMap.2 ⟨slot, member, within⟩)
  have parsed := parses_decodeSlots written (EntityKind.optionalPlain_layout e.kind) slotsShort
    e.kind.empty
  rw [EntityKind.fill_normal] at parsed
  exact parsed.cast rfl (by rw [Entity.lengths, List.forall_mem_flatMap])

theorem decode_eq_ok {k : EntityKind} {b : Bytes} {v : k.Carrier} :
    decode k b = .ok v ↔ (decodeSlots k.layout k.empty).run b = .ok (v, []) := by
  unfold decode
  rw [bind_eq_ok]
  constructor
  · rintro ⟨⟨e, rest⟩, read, checked⟩
    dsimp only at checked
    by_cases empty : rest.isEmpty = true
    · rw [if_pos empty] at checked
      cases checked
      rw [List.isEmpty_iff.1 empty] at read
      exact read
    · rw [if_neg empty] at checked
      cases checked
  · intro read
    exact ⟨(v, []), read, rfl⟩

theorem malformed_decode {k : EntityKind} {b : Bytes}
    (refused : Malformed ((decodeSlots k.layout k.empty).run b)) : Malformed (decode k b) := by
  unfold decode
  cases read : (decodeSlots k.layout k.empty).run b with
  | error f =>
    rw [read] at refused
    exact refused
  | ok p =>
    rw [read] at refused
    exact refused.elim

theorem malformed_decode_of_trailing {k : EntityKind} {b rest : Bytes} {v : k.Carrier}
    (read : (decodeSlots k.layout k.empty).run b = .ok (v, rest)) (trailing : rest ≠ []) :
    Malformed (decode k b) := by
  unfold decode
  rw [read, ok_bind]
  dsimp only
  rw [if_neg (by simpa using trailing)]
  exact malformed_unreadable _

theorem not_writable_iff {s : Shape} {v : s.Value} :
    ¬Writable s v ↔ (∃ o ∈ s.ordinals v, 255 < o.toNat) ∨ ∃ y ∈ s.floats v, y.isNaN = true := by
  unfold Writable
  rw [not_and_or]
  apply or_congr
  · simp only [not_forall, exists_prop, Nat.not_lt]
    exact exists_congr fun o => and_congr_right fun _ => by omega
  · simp

/-- The borsh writer refuses exactly the entities holding an ordinal above 255 or a NaN float,
and refuses them as out of range; every entity it writes whose texts and sides are shorter than
2^31 reads back as its normal form. -/
theorem encode_fails_iff_and_decode_encode (e : Entity) (short : ∀ n ∈ e.lengths, n < 2 ^ 31) :
    ((∃ f, encode e = .error f) ↔
        (∃ o ∈ e.ordinals, 255 < o.toNat) ∨ ∃ x ∈ e.floats, x.isNaN = true) ∧
      (∀ f, encode e = .error f → f.code? = some .rangeExceeded) ∧
      ∀ b, encode e = .ok b → decode e.kind b = .ok (e.kind.normalize e.value) := by
  refine ⟨?_, encodeSlots_refusal _ _, ?_⟩
  · rw [error_iff_not_ok, encode, encodeSlots_isOk]
    simp only [not_forall, not_writable_iff, Entity.ordinals, Entity.floats, List.mem_flatMap]
    constructor
    · rintro ⟨slot, member, ⟨o, within, large⟩ | ⟨y, within, nan⟩⟩
      · exact .inl ⟨o, ⟨slot, member, within⟩, large⟩
      · exact .inr ⟨y, ⟨slot, member, within⟩, nan⟩
    · rintro (⟨o, ⟨slot, member, within⟩, large⟩ | ⟨y, ⟨slot, member, within⟩, nan⟩)
      · exact ⟨slot, member, .inl ⟨o, within, large⟩⟩
      · exact ⟨slot, member, .inr ⟨y, within, nan⟩⟩
  · intro b wrote
    have accepted : ∀ n ∈ e.lengths, n ≤ 0x7FFFFFFF := fun n member => by
      have := short n member
      omega
    have parsed := parses_decode wrote fun n member => by
      have := short n member
      omega
    have read := parsed.reads accepted []
    rw [List.append_nil] at read
    exact decode_eq_ok.2 read

/-- A price whose present chain arm holds the ordinal 256 is refused as out of range; a book with
texts that are no UTF-8, a supplied empty side and asks at -0 and +∞ is written and read back,
the empty side as not supplied. -/
theorem encode_refuses_chain_and_writes_book :
    (∃ f, encode ⟨.price,
        { source := [0xFF], chain := some ⟨256⟩, pair := ⟨[0x42], [0x55]⟩,
          expiration := some (-7) }⟩ = .error f ∧ f.code? = some .rangeExceeded) ∧
      ∃ b, encode ⟨.snapshot,
          { base := ⟨-3, [0x41], [0xC3, 0x28]⟩, instrumentType := ⟨7⟩, bids := some [],
            asks := some [⟨⟨0x8000000000000000⟩, ⟨0x7FF0000000000000⟩⟩] }⟩ = .ok b ∧
        decode .snapshot b = .ok
          { base := ⟨-3, [0x41], [0xC3, 0x28]⟩, instrumentType := ⟨7⟩,
            asks := some [⟨⟨0x8000000000000000⟩, ⟨0x7FF0000000000000⟩⟩] } := by
  have shortPrice : ∀ n ∈ Entity.lengths ⟨.price,
      { source := [0xFF], chain := some ⟨256⟩, pair := ⟨[0x42], [0x55]⟩,
        expiration := some (-7) }⟩, n < 2 ^ 31 := by
    decide
  have shortBook : ∀ n ∈ Entity.lengths ⟨.snapshot,
      { base := ⟨-3, [0x41], [0xC3, 0x28]⟩, instrumentType := ⟨7⟩, bids := some [],
        asks := some [⟨⟨0x8000000000000000⟩, ⟨0x7FF0000000000000⟩⟩] }⟩, n < 2 ^ 31 := by
    decide
  obtain ⟨refused, coded, -⟩ := encode_fails_iff_and_decode_encode _ shortPrice
  obtain ⟨written, -, readBack⟩ := encode_fails_iff_and_decode_encode _ shortBook
  obtain ⟨f, fails⟩ := refused.2 (.inl ⟨⟨256⟩, by decide, by decide⟩)
  -- the book holds no ordinal above 255 and no NaN, so the writer gives bytes
  obtain ⟨b, wrote⟩ := error_iff_not_ok.not_left.1 (mt written.1 (by decide))
  exact ⟨⟨f, fails, coded f fails⟩, b, wrote, readBack b wrote⟩

/-! ## Reading accepts only what the writer writes -/

theorem ofWire_eq_absent {n : Nat} (chosen : Arm.ofWire n = .ok .absent) : n = 0 := by
  unfold Arm.ofWire at chosen
  by_cases zero : n = 0
  · exact zero
  · rw [if_neg zero] at chosen
    by_cases one : n = 1
    · rw [if_pos one] at chosen
      cases chosen
    · rw [if_neg one] at chosen
      cases chosen

theorem ofWire_eq_present {n : Nat} (chosen : Arm.ofWire n = .ok .present) : n = 1 := by
  unfold Arm.ofWire at chosen
  by_cases zero : n = 0
  · rw [if_pos zero] at chosen
    cases chosen
  · rw [if_neg zero] at chosen
    by_cases one : n = 1
    · exact one
    · rw [if_neg one] at chosen
      cases chosen

theorem decodeValue_sound_book {b rest : Bytes} {x : Orderbook}
    (read : (decodeValue .book).run b = .ok (x, rest)) :
    ∃ w, encodeValue .book x = .ok w ∧ b = w ++ rest := by
  obtain ⟨updateId, _, readId, read⟩ := run_bind_eq_ok read
  obtain ⟨bids, _, readBids, read⟩ := run_bind_eq_ok read
  obtain ⟨asks, _, readAsks, gave⟩ := run_bind_eq_ok read
  obtain ⟨rfl, rfl⟩ := run_pure_eq_ok gave
  obtain ⟨_, bidNumbers, rfl⟩ := readLevels_sound readBids
  obtain ⟨_, askNumbers, rfl⟩ := readLevels_sound readAsks
  have wrote : encodeValue .book ⟨updateId, bids, asks⟩ = .ok (word updateId ++
      (length bids.toList.length ++ bids.toList.flatMap levelBytes) ++
      (length asks.toList.length ++ asks.toList.flatMap levelBytes)) := by
    simp only [encodeValue, levels_eq_ok.2 ⟨bidNumbers, rfl⟩, levels_eq_ok.2 ⟨askNumbers, rfl⟩, ok_bind]
    rfl
  exact ⟨_, wrote, by rw [readWord_sound readId]; simp⟩

theorem decodeValue_sound_header {b rest : Bytes} {x : Header}
    (read : (decodeValue .header).run b = .ok (x, rest)) :
    ∃ w, encodeValue .header x = .ok w ∧ b = w ++ rest := by
  obtain ⟨timestamp, _, readTime, read⟩ := run_bind_eq_ok read
  obtain ⟨source, _, readSource, read⟩ := run_bind_eq_ok read
  obtain ⟨publisher, _, readPublisher, gave⟩ := run_bind_eq_ok read
  obtain ⟨rfl, rfl⟩ := run_pure_eq_ok gave
  obtain ⟨_, rfl⟩ := readText_sound readSource
  obtain ⟨_, rfl⟩ := readText_sound readPublisher
  exact ⟨_, rfl, by rw [readWord_sound readTime, UInt64.toUInt64_toInt64]; simp⟩

/-- Whatever the reader of a shape accepts, the writer writes back byte for byte. -/
theorem decodeValue_sound (s : Shape) {b rest : Bytes} {x : s.Value}
    (read : (decodeValue s).run b = .ok (x, rest)) : ∃ w, encodeValue s x = .ok w ∧ b = w ++ rest := by
  induction s generalizing b rest with
  | text =>
    obtain ⟨_, rfl⟩ := readText_sound read
    exact ⟨_, rfl, rfl⟩
  | int =>
    obtain ⟨v, _, readV, gave⟩ := run_bind_eq_ok read
    obtain ⟨rfl, rfl⟩ := run_pure_eq_ok gave
    exact ⟨_, rfl, by rw [readWord_sound readV, UInt64.toUInt64_toInt64]⟩
  | word => exact ⟨_, rfl, readWord_sound read⟩
  | float =>
    obtain ⟨number, rfl⟩ := readFloat_sound read
    exact ⟨_, float_eq_ok.2 ⟨number, rfl⟩, rfl⟩
  | amount =>
    obtain ⟨low, _, readLow, read⟩ := run_bind_eq_ok read
    obtain ⟨high, _, readHigh, gave⟩ := run_bind_eq_ok read
    obtain ⟨rfl, rfl⟩ := run_pure_eq_ok gave
    exact ⟨_, rfl, by rw [readWord_sound readLow, readWord_sound readHigh, List.append_assoc]⟩
  | ordinal e =>
    obtain ⟨byte, _, readB, gave⟩ := run_bind_eq_ok read
    obtain ⟨rfl, rfl⟩ := run_pure_eq_ok gave
    have small : byte.toUInt32.toNat < 256 := by
      rw [UInt8.toNat_toUInt32]
      exact byte.toNat_lt
    refine ⟨[byte], ?_, readByte_sound readB⟩
    simp only [encodeValue]
    rw [if_pos small, UInt8.toUInt8_toUInt32]
  | pair =>
    obtain ⟨base, _, readBase, read⟩ := run_bind_eq_ok read
    obtain ⟨quote, _, readQuote, gave⟩ := run_bind_eq_ok read
    obtain ⟨rfl, rfl⟩ := run_pure_eq_ok gave
    obtain ⟨_, rfl⟩ := readText_sound readBase
    obtain ⟨_, rfl⟩ := readText_sound readQuote
    exact ⟨_, rfl, by rw [List.append_assoc]⟩
  | depth =>
    obtain ⟨percentage, _, readP, read⟩ := run_bind_eq_ok read
    obtain ⟨bid, _, readB, read⟩ := run_bind_eq_ok read
    obtain ⟨ask, _, readA, gave⟩ := run_bind_eq_ok read
    obtain ⟨rfl, rfl⟩ := run_pure_eq_ok gave
    obtain ⟨pNumber, rfl⟩ := readFloat_sound readP
    obtain ⟨bNumber, rfl⟩ := readFloat_sound readB
    obtain ⟨aNumber, rfl⟩ := readFloat_sound readA
    have wrote : encodeValue .depth ⟨percentage, bid, ask⟩ = .ok (Bytes.littleEndian 8 percentage.bits.toNat ++
        Bytes.littleEndian 8 bid.bits.toNat ++ Bytes.littleEndian 8 ask.bits.toNat) := by
      simp only [encodeValue, float_eq_ok.2 ⟨pNumber, rfl⟩, float_eq_ok.2 ⟨bNumber, rfl⟩,
        float_eq_ok.2 ⟨aNumber, rfl⟩, ok_bind]
      rfl
    exact ⟨_, wrote, by simp⟩
  | book => exact decodeValue_sound_book read
  | header => exact decodeValue_sound_header read
  | levels =>
    obtain ⟨_, numbers, rfl⟩ := readLevels_sound read
    exact ⟨_, levels_eq_ok.2 ⟨numbers, rfl⟩, by rw [List.append_assoc]⟩
  | optional s inductionHypothesis =>
    obtain ⟨arm, _, readArm, chosen⟩ := run_bind_eq_ok read
    rw [readByte_sound readArm]
    cases wire : Arm.ofWire arm.toNat with
    | error f =>
      rw [wire] at chosen
      cases chosen
    | ok a =>
      cases a with
      | absent =>
        rw [wire] at chosen
        obtain ⟨rfl, rfl⟩ := run_pure_eq_ok chosen
        have zero : arm = 0 := UInt8.toNat_inj.1 (ofWire_eq_absent wire)
        exact ⟨[0], rfl, by rw [zero]⟩
      | present =>
        rw [wire] at chosen
        obtain ⟨y, _, inner, gave⟩ := run_bind_eq_ok chosen
        obtain ⟨rfl, rfl⟩ := run_pure_eq_ok gave
        obtain ⟨w, wrote, rfl⟩ := inductionHypothesis inner
        have one : arm = 1 := UInt8.toNat_inj.1 (ofWire_eq_present wire)
        refine ⟨[1] ++ w, ?_, by rw [one]; rfl⟩
        simp only [encodeValue, wrote, ok_bind]
        rfl

section Layouts

variable {α : Type}

theorem get_decodeSlots {slot : Slot α} :
    ∀ {layout : List (Slot α)}, (∀ t ∈ layout, Slot.Independent slot t) →
      ∀ {init value : α} {b rest : Bytes},
        (decodeSlots layout init).run b = .ok (value, rest) → slot.get value = slot.get init
  | [], _, _, _, _, _, read => by
    obtain ⟨rfl, rfl⟩ := run_pure_eq_ok read
    rfl
  | t :: _, apart, init, _, _, _, read => by
    obtain ⟨_, _, step, later⟩ := run_bind_eq_ok read
    obtain ⟨x, _, _, gave⟩ := run_bind_eq_ok step
    obtain ⟨rfl, rfl⟩ := run_pure_eq_ok gave
    rw [get_decodeSlots (fun u member => apart u (.tail _ member)) later]
    exact (apart t (.head _)).1 x init

/-- What the slots of a lawful layout read is what the writer writes for the value they build,
slot by slot: the reader accepts no byte the writer would not have written. -/
theorem decodeSlots_sound :
    ∀ {layout : List (Slot α)}, Layout.Lawful layout →
      ∀ {init value : α} {b rest : Bytes}, (decodeSlots layout init).run b = .ok (value, rest) →
        ∃ parts, List.Forall₂ (fun slot w => encodeValue slot.shape (slot.get value) = .ok w)
          layout parts ∧ b = parts.flatten ++ rest
  | [], _, _, _, _, _, read => by
    obtain ⟨rfl, rfl⟩ := run_pure_eq_ok read
    exact ⟨[], .nil, rfl⟩
  | t :: layout, lawful, init, value, _, _, read => by
    obtain ⟨_, _, step, later⟩ := run_bind_eq_ok read
    obtain ⟨x, _, readX, gave⟩ := run_bind_eq_ok step
    obtain ⟨rfl, rfl⟩ := run_pure_eq_ok gave
    obtain ⟨w, wrote, rfl⟩ := decodeValue_sound t.shape readX
    obtain ⟨apart, independent⟩ := List.pairwise_cons.1 lawful.independent
    -- the later slots are other fields, so the head slot keeps the value just read
    have kept : t.get value = x := by
      rw [get_decodeSlots apart later]
      exact (lawful.slots t (.head _)).get_set x init
    have rest : Layout.Lawful layout := ⟨fun u member => lawful.slots u (.tail _ member), independent⟩
    obtain ⟨parts, written, rfl⟩ := decodeSlots_sound rest later
    refine ⟨w :: parts, .cons (by rw [kept]; exact wrote) written, ?_⟩
    rw [List.flatten_cons, List.append_assoc]

end Layouts

theorem encode_of_decode {k : EntityKind} {b : Bytes} {v : k.Carrier} (read : decode k b = .ok v) :
    encode ⟨k, v⟩ = .ok b := by
  obtain ⟨parts, written, rfl⟩ := decodeSlots_sound (EntityKind.layout_lawful k) (decode_eq_ok.1 read)
  rw [List.append_nil]
  exact encodeSlots_eq_ok.2 ⟨parts, written, rfl⟩

/-- Reading accepts exactly what the writer writes. Every entity read from bytes writes those bytes
back; and the bytes of a written entity are read only whole: every proper prefix and every
extension is refused as a malformed payload, never as a malformed union. A length is written in
32 bits, so the second part needs every length of the entity below 2^32: a longer text wraps its
prefix, which then ends inside the text. -/
theorem decode_canonical :
    (∀ (k : EntityKind) (b : Bytes) (v : k.Carrier), decode k b = .ok v → encode ⟨k, v⟩ = .ok b) ∧
      ∀ (e : Entity) (b : Bytes), (∀ n ∈ e.lengths, n < 2 ^ 32) → encode e = .ok b →
        (∀ p q, p ++ q = b → q ≠ [] →
          ∃ f, decode e.kind p = .error f ∧ f.code? = some .malformedPayload) ∧
        ∀ s, s ≠ [] → ∃ f, decode e.kind (b ++ s) = .error f ∧ f.code? = some .malformedPayload := by
  refine ⟨fun _ _ _ read => encode_of_decode read, fun e b short wrote => ?_⟩
  have parsed := parses_decode wrote short
  refine ⟨fun p q split cut => malformed_iff.1 (malformed_decode (parsed.truncated p q split cut)),
    fun s extended => malformed_iff.1 ?_⟩
  -- an extension either reads the entity and leaves bytes over, or fails on a length
  by_cases fits : ∀ n ∈ e.lengths, n ≤ 0x7FFFFFFF
  · exact malformed_decode_of_trailing (parsed.reads fits s) extended
  · exact malformed_decode (parsed.refuses fits s)

/-- A price with both arms present loses its last byte, and a book with texts, a supplied empty
side and two levels gains one: both are refused as malformed payloads. -/
theorem decode_refuses_cut_price_and_extended_book :
    (∃ b, encode ⟨.price,
        { source := [0xFF], chain := some ⟨3⟩, pair := ⟨[0x42], [0x55]⟩,
          expiration := some (-7) }⟩ = .ok b ∧
      ∃ f, decode .price b.dropLast = .error f ∧ f.code? = some .malformedPayload) ∧
    ∃ b, encode ⟨.snapshot,
        { base := ⟨-3, [0x41], [0xC3, 0x28]⟩, instrumentType := ⟨1⟩, bids := some [],
          asks := some [⟨⟨0x3FF0000000000000⟩, ⟨0x8000000000000000⟩⟩, ⟨F64.inf, F64.zero⟩] }⟩ = .ok b ∧
      ∃ f, decode .snapshot (b ++ [1]) = .error f ∧ f.code? = some .malformedPayload := by
  obtain ⟨p, wrotePrice⟩ : ∃ b, encode ⟨.price,
      { source := [0xFF], chain := some ⟨3⟩, pair := ⟨[0x42], [0x55]⟩,
        expiration := some (-7) }⟩ = .ok b := ⟨_, rfl⟩
  obtain ⟨b, wroteBook⟩ : ∃ b, encode ⟨.snapshot,
      { base := ⟨-3, [0x41], [0xC3, 0x28]⟩, instrumentType := ⟨1⟩, bids := some [],
        asks := some [⟨⟨0x3FF0000000000000⟩, ⟨0x8000000000000000⟩⟩, ⟨F64.inf, F64.zero⟩] }⟩ = .ok b :=
    ⟨_, rfl⟩
  have shortPrice : ∀ n ∈ Entity.lengths ⟨.price,
      { source := [0xFF], chain := some ⟨3⟩, pair := ⟨[0x42], [0x55]⟩,
        expiration := some (-7) }⟩, n < 2 ^ 32 := by
    decide
  have shortBook : ∀ n ∈ Entity.lengths ⟨.snapshot,
      { base := ⟨-3, [0x41], [0xC3, 0x28]⟩, instrumentType := ⟨1⟩, bids := some [],
        asks := some [⟨⟨0x3FF0000000000000⟩, ⟨0x8000000000000000⟩⟩, ⟨F64.inf, F64.zero⟩] }⟩, n < 2 ^ 32 := by
    decide
  have nonempty : p ≠ [] := by
    have written : (encode ⟨.price,
        { source := [0xFF], chain := some ⟨3⟩, pair := ⟨[0x42], [0x55]⟩,
          expiration := some (-7) }⟩).toOption ≠ some [] := by
      decide +kernel
    rintro rfl
    exact written (by rw [wrotePrice]; rfl)
  have cut := (decode_canonical.2 _ p shortPrice wrotePrice).1 _ _ (List.dropLast_append_getLast nonempty)
    (List.cons_ne_nil _ _)
  exact ⟨⟨p, wrotePrice, cut⟩, b, wroteBook, (decode_canonical.2 _ b shortBook wroteBook).2 [1] (List.cons_ne_nil _ _)⟩

/-- The bound on lengths in `decode_canonical` cannot be dropped: a source of 2^32 bytes writes the
length 0, and the first 28 bytes written are then read as a whole entry, with the text left over. -/
theorem decode_accepts_prefix_of_wrapped_length :
    encode ⟨.fundingRate, ({ source := List.replicate (2 ^ 32) 0 } : FundingRateEntry)⟩ =
        .ok (List.replicate 28 0 ++ List.replicate (2 ^ 32) 0) ∧
      decode .fundingRate (List.replicate 28 0) = .ok {} := by
  have wrapped : length (2 ^ 32) = List.replicate 4 0 := by decide
  have empty : length 0 = List.replicate 4 0 := by decide
  have zeroWord : word 0 = List.replicate 8 0 := by decide
  have zeroFloat : Bytes.littleEndian 8 0 = List.replicate 8 0 := by decide
  refine ⟨encodeSlots_eq_ok.2 ⟨[text (List.replicate (2 ^ 32) 0), text [] ++ text [],
    Bytes.littleEndian 8 0, word 0], .cons rfl (.cons rfl (.cons rfl (.cons rfl .nil))), ?_⟩, rfl⟩
  simp only [text, wrapped, empty, zeroWord, zeroFloat, List.length_replicate, List.length_nil,
    List.flatten_cons, List.flatten_nil, List.append_nil, List.replicate_append_replicate]
  congr 1

end MarketData.Borsh
