import MarketData.Codec
import MarketData.Proofs.Except

/-!
# What decoding leaves in its destination

Decoding stores into a destination of the type it reads. Whether it fails, and what it stores
when it succeeds, depend on the destination's type only: a decode that succeeds replaces the
destination with a value of that type and never merges into what it held
(`unmarshal_replaces`). A decode that fails leaves the destination as it was in borsh, JSON and
parquet, and in every codec when the destination is of a type the codec does not take.

Protobuf differs: its reader stores what its decoder returns even when the decoder fails, and the
decoder then returns the empty entity, so a failed protobuf decode leaves an entity destination
holding the empty entity of its kind (`protobuf_failure_empties`). Decoding is therefore not
atomic in every codec: a destination that held anything else is changed by a failure
(`protobuf_failure_changes_destination`).
-/

namespace MarketData

@[simp] theorem ValueType.type_fresh (t : ValueType) : t.fresh.type = t := by
  cases t <;> rfl

namespace Codec

variable (c : Codec) (data : Encoded)

theorem unmarshal_of_ok {dst : Subject} {d : Decoded} (read : c.decode dst.type data = .ok d) :
    c.unmarshal data dst = (none, d.subject) := by
  rw [unmarshal, read]

theorem unmarshal_of_error {dst : Subject} {f : Failure} (refused : c.decode dst.type data = .error f) :
    c.unmarshal data dst = (some f, c.leftOnFailure dst) := by
  rw [unmarshal, refused]

theorem map_one_eq_ok {k : EntityKind} {x : Except Failure k.Carrier} {d : Decoded}
    (read : x.map (fun v => Decoded.one ⟨k, v⟩) = .ok d) : d.subject.type = .entity k := by
  cases x with
  | error f => cases read
  | ok v => cases read; rfl

theorem decode_type {t : ValueType} {d : Decoded} (read : c.decode t data = .ok d) : d.subject.type = t := by
  unfold decode at read
  split at read
  case h_1 | h_2 | h_3 => exact map_one_eq_ok read
  case h_4 k =>
    obtain ⟨rows, -, stored⟩ := bind_eq_ok.1 read
    split at stored
    · obtain ⟨v, -, stored⟩ := bind_eq_ok.1 stored
      cases stored
      rfl
    · cases stored
  case h_5 k =>
    obtain ⟨rows, -, stored⟩ := bind_eq_ok.1 read
    obtain ⟨es, -, stored⟩ := bind_eq_ok.1 stored
    cases stored
    rfl
  case h_6 => cases read

theorem leftOnFailure_type (dst : Subject) : (c.leftOnFailure dst).type = dst.type := by
  cases c <;> cases dst <;> rfl

/-- The destination holds a value of its type after every decode, successful or not. -/
theorem unmarshal_type (dst : Subject) : (c.unmarshal data dst).2.type = dst.type := by
  cases read : c.decode dst.type data with
  | ok d => rw [unmarshal_of_ok c data read]; exact decode_type c data read
  | error f => rw [unmarshal_of_error c data read]; exact leftOnFailure_type c dst

/-- Whether decoding fails, and what it stores when it succeeds, depend on the type of the
destination only, never on what it held. -/
theorem unmarshal_replaces {dst dst' : Subject} (same : dst'.type = dst.type) :
    (c.unmarshal data dst').1 = (c.unmarshal data dst).1 ∧
      ((c.unmarshal data dst).1 = none → (c.unmarshal data dst').2 = (c.unmarshal data dst).2) := by
  unfold unmarshal
  rw [same]
  cases c.decode dst.type data <;> simp

theorem leftOnFailure_of_format {dst : Subject} (other : c.format ≠ .protobuf) : c.leftOnFailure dst = dst := by
  cases c <;> first | rfl | exact absurd rfl other

theorem decode_error_of_failed {dst : Subject} (failed : (c.unmarshal data dst).1 ≠ none) :
    ∃ f, c.decode dst.type data = .error f := by
  cases read : c.decode dst.type data with
  | ok d => rw [unmarshal_of_ok c data read] at failed; exact absurd rfl failed
  | error f => exact ⟨f, rfl⟩

theorem unmarshal_failure_keeps {dst : Subject} (other : c.format ≠ .protobuf)
    (failed : (c.unmarshal data dst).1 ≠ none) : (c.unmarshal data dst).2 = dst := by
  obtain ⟨f, refused⟩ := decode_error_of_failed c data failed
  rw [unmarshal_of_error c data refused]
  exact leftOnFailure_of_format c other

/-- A failed protobuf decode leaves an entity destination holding the empty entity of its kind. -/
theorem protobuf_failure_empties {e : Entity} (failed : (Codec.protobuf.unmarshal data (.entity e)).1 ≠ none) :
    (Codec.protobuf.unmarshal data (.entity e)).2 = .entity ⟨e.kind, e.kind.empty⟩ := by
  obtain ⟨f, refused⟩ := decode_error_of_failed _ data failed
  rw [unmarshal_of_error _ data refused]
  rfl

/-- Decoding replaces the destination and never merges into it, in every codec. A failure leaves
the destination as it was outside protobuf; in protobuf it leaves an entity destination holding
the empty entity of its kind. -/
theorem unmarshal_replaces_and_failure_leaves {dst dst' : Subject} (same : dst'.type = dst.type) :
    (c.unmarshal data dst').1 = (c.unmarshal data dst).1 ∧
      ((c.unmarshal data dst).1 = none → (c.unmarshal data dst').2 = (c.unmarshal data dst).2) ∧
      ((c.unmarshal data dst).1 ≠ none →
        (c.format ≠ .protobuf → (c.unmarshal data dst).2 = dst) ∧
        ∀ e, dst = .entity e → c.format = .protobuf → (c.unmarshal data dst).2 = .entity ⟨e.kind, e.kind.empty⟩) := by
  obtain ⟨sameFailure, sameValue⟩ := unmarshal_replaces c data same
  refine ⟨sameFailure, sameValue, fun failed => ⟨fun other => unmarshal_failure_keeps c data other failed, ?_⟩⟩
  rintro e rfl protobuf
  cases c <;> first | exact protobuf_failure_empties data failed | cases protobuf

/-- A funding rate cut off after its source: protobuf leaves the destination empty, borsh leaves it
as it was. -/
theorem unmarshal_cut_funding_rate :
    (Codec.protobuf.unmarshal (.bytes [0x0A, 0x01, 0x41, 0x08])
        (.entity ⟨.fundingRate, { source := [0x42] }⟩)).2 = .entity ⟨.fundingRate, {}⟩ ∧
      (Codec.borsh.unmarshal (.bytes [0x01, 0, 0, 0, 0x41])
        (.entity ⟨.fundingRate, { source := [0x42] }⟩)).2 = .entity ⟨.fundingRate, { source := [0x42] }⟩ := by
  have protobufFails : (Codec.protobuf.unmarshal (.bytes [0x0A, 0x01, 0x41, 0x08])
      (.entity ⟨.fundingRate, { source := [0x42] }⟩)).1 ≠ none := by
    decide +kernel
  have borshFails : (Codec.borsh.unmarshal (.bytes [0x01, 0, 0, 0, 0x41])
      (.entity ⟨.fundingRate, { source := [0x42] }⟩)).1 ≠ none := by
    decide +kernel
  exact ⟨((unmarshal_replaces_and_failure_leaves _ _ rfl).2.2 protobufFails).2 _ rfl rfl,
    ((unmarshal_replaces_and_failure_leaves _ _ rfl).2.2 borshFails).1 (by decide)⟩

/-- Decoding is not atomic in protobuf: a funding rate cut off after its source fails to decode,
and the destination, which held a source, is left empty. -/
theorem protobuf_failure_changes_destination :
    ∃ f, Codec.protobuf.unmarshal (.bytes [0x0A, 0x01, 0x41, 0x08])
        (.entity ⟨.fundingRate, { source := [0x42] }⟩) = (some f, .entity ⟨.fundingRate, {}⟩) ∧
      Subject.entity ⟨.fundingRate, {}⟩ ≠ .entity ⟨.fundingRate, { source := [0x42] }⟩ := by
  have failed : (Codec.protobuf.unmarshal (.bytes [0x0A, 0x01, 0x41, 0x08])
      (.entity ⟨.fundingRate, { source := [0x42] }⟩)).1 ≠ none := by
    decide +kernel
  obtain ⟨f, refused⟩ := decode_error_of_failed _ _ failed
  refine ⟨f, unmarshal_of_error _ _ refused, fun same => ?_⟩
  have sameValue := eq_of_heq (Entity.mk.inj (Subject.entity.inj same)).2
  exact absurd (congrArg FundingRateEntry.source sameValue) (by decide)

end Codec

end MarketData
