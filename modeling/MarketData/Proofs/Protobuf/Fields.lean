import MarketData.Protobuf.Wire
import MarketData.Proofs.Bytes

/-!
# Fields read back

Every writer of the protobuf wire lays a field out the same way: the tag, then the body its wire
type calls for. `Field.encode` is that layout for every field. The statements of this module
say that the reader takes it back:

* a varint written for a number below 2^64 reads back as the number (`readVarint_varintOfNat`);
* a tag of a field number from 1 to 2^31 - 1 reads back as its number and wire type;
* a whole field reads back as itself, whatever follows it (`readField_encode`);
* the fields of a message are visited one by one, in order (`foldFields_encode`).

Byte strings are below 2^64 bytes throughout, as every length a varint carries is.
-/

namespace MarketData.Protobuf

/-- The body of a field after its tag: the varint, the eight or four bytes, the length and the
content, or the end tag of a group. -/
def Payload.body (num : Nat) : Payload → Bytes
  | .varint v => Protobuf.varint v
  | .fixed64 v => Bytes.littleEndian 8 v.toNat
  | .bytes b => varintOfNat b.length ++ b
  | .group => tag num 4
  | .fixed32 v => Bytes.littleEndian 4 v.toNat

/-- The bytes of a field: its tag and its body. -/
def Field.encode (f : Field) : Bytes := tag f.num f.payload.wireType ++ f.payload.body f.num

/-- A field the reader takes: its number runs from 1 to 2^31 - 1, and its bytes are fewer than
2^64. -/
structure Field.Readable (f : Field) : Prop where
  num_pos : 0 < f.num
  num_lt : f.num < 2 ^ 31
  short : f.encode.length < 2 ^ 64

/-! ## Varints -/

/-- The varint of `n`, read from its `index`-th byte on with `acc` gathered from the bytes
before: the value is `acc` plus `n` at the weight of that byte. -/
theorem readVarintFrom_varintOfNat (rest : Bytes) :
    ∀ (n index acc fuel : Nat), index ≤ 9 → 10 ≤ index + fuel → n < 2 ^ (64 - 7 * index) →
      readVarintFrom acc index fuel (varintOfNat n ++ rest) =
        .ok ((acc + n * 2 ^ (7 * index)).toUInt64, rest) := by
  intro n
  induction n using Nat.strongRecOn with
  | ind n inductionHypothesis =>
    intro index acc fuel position enough fits
    obtain ⟨fuel, rfl⟩ : ∃ f, fuel = f + 1 := ⟨fuel - 1, by omega⟩
    by_cases small : n < 128
    · rw [varintOfNat_small small, List.singleton_append, readVarintFrom]
      simp only [Nat.pow_eq]
      have byte : (n.toUInt8).toNat = n := by simp; omega
      by_cases last : index = 9
      · -- the tenth byte carries the top bit only
        subst last
        have : n < 2 := by simpa using fits
        rw [if_pos rfl, if_pos (by simp [UInt8.lt_iff_toNat_lt, byte]; omega), byte]
      · rw [if_neg last, if_pos (by simp [UInt8.lt_iff_toNat_lt, byte]; omega), byte]
    · have early : index < 9 :=
        Nat.lt_of_le_of_ne position (by rintro rfl; simp at fits; omega)
      rw [varintOfNat, dif_neg small, List.cons_append, readVarintFrom]
      simp only [Nat.pow_eq]
      have byte : ((n % 128 + 128).toUInt8).toNat = n % 128 + 128 := by simp; omega
      rw [if_neg (by omega), if_neg (by simp [UInt8.lt_iff_toNat_lt]; omega), byte]
      have weight : 2 ^ (7 * (index + 1)) = 2 ^ (7 * index) * 128 := by
        rw [show 7 * (index + 1) = 7 * index + 7 by omega, Nat.pow_add]
      have higher : n / 128 < 2 ^ (64 - 7 * (index + 1)) := by
        have : 2 ^ (64 - 7 * index) = 2 ^ (64 - 7 * (index + 1)) * 128 := by
          rw [show 64 - 7 * index = (64 - 7 * (index + 1)) + 7 by omega, Nat.pow_add]
        omega
      rw [inductionHypothesis (n / 128) (by omega) (index + 1) _ fuel (by omega) (by omega) higher,
        weight, Nat.add_sub_cancel]
      congr 3
      have split := Nat.div_add_mod n 128
      calc acc + n % 128 * 2 ^ (7 * index) + n / 128 * (2 ^ (7 * index) * 128)
          = acc + (128 * (n / 128) + n % 128) * 2 ^ (7 * index) := by
            rw [Nat.add_mul, Nat.mul_comm 128, Nat.mul_assoc, Nat.mul_comm 128]; omega
        _ = acc + n * 2 ^ (7 * index) := by rw [split]

theorem readVarint_varintOfNat {n : Nat} (fits : n < 2 ^ 64) (rest : Bytes) :
    readVarint (varintOfNat n ++ rest) = .ok (n.toUInt64, rest) := by
  rw [readVarint, readVarintFrom_varintOfNat rest n 0 0 10 (by omega) (by omega) fits]
  simp

@[simp] theorem readVarint_varint (v : UInt64) (rest : Bytes) :
    readVarint (varint v ++ rest) = .ok (v, rest) := by
  rw [varint, readVarint_varintOfNat v.toNat_lt]
  simp

theorem varintOfNat_ne_nil (n : Nat) : varintOfNat n ≠ [] := by
  rw [varintOfNat]
  split <;> simp

/-! ## Tags and fields -/

theorem readTag_tag {num wireType : Nat} (positive : 0 < num) (below : num < 2 ^ 31)
    (typed : wireType < 8) (rest : Bytes) :
    readTag (tag num wireType ++ rest) = .ok (num, wireType, rest) := by
  have fits : num * 8 + wireType < 2 ^ 64 := by omega
  have value : (num * 8 + wireType).toUInt64.toNat = num * 8 + wireType := by
    simp only [Nat.toUInt64_eq, UInt64.toNat_ofNat']
    exact Nat.mod_eq_of_lt fits
  have number : (num * 8 + wireType) / 8 = num := by omega
  have kind : (num * 8 + wireType) % 8 = wireType := by omega
  simp only [readTag, tag, readVarint_varintOfNat fits, bind, Except.bind, value, number, kind]
  rw [if_neg (by simp; omega)]
  rfl

theorem takeExactly_append {w : Bytes} {n : Nat} (sized : w.length = n) (rest : Bytes) :
    takeExactly n (w ++ rest) = .ok (w, rest) := by
  subst sized
  simp [takeExactly]

theorem wireType_lt (p : Payload) : p.wireType < 8 := by
  cases p <;> simp [Payload.wireType]

/-- The body of a field reads back as its payload: a group needs one step of fuel and one level
of depth to find its end tag. -/
theorem readValue_body (f : Field) (positive : 0 < f.num) (below : f.num < 2 ^ 31)
    (short : f.encode.length < 2 ^ 64) (fuel depth : Nat)
    (enough : (f.payload.body f.num).length ≤ fuel) (rest : Bytes) :
    readValue (fuel + 1) (depth + 1) f.num f.payload.wireType (f.payload.body f.num ++ rest) =
      .ok (f.payload, rest) := by
  obtain ⟨num, payload⟩ := f
  cases payload with
  | varint v =>
    simp only [readValue, Payload.wireType, Payload.body, readVarint_varint, bind, Except.bind,
      pure, Except.pure]
  | fixed64 v =>
    simp only [readValue, Payload.wireType, Payload.body,
      takeExactly_append (Bytes.length_littleEndian 8 _), bind, Except.bind, pure, Except.pure,
      Bytes.toUInt64_readLittleEndian]
  | bytes b =>
    have fits : b.length < 2 ^ 64 := by
      simp only [Field.encode, Payload.body, List.length_append] at short
      omega
    have sized : b.length = b.length.toUInt64.toNat := by
      simp only [Nat.toUInt64_eq, UInt64.toNat_ofNat']
      exact (Nat.mod_eq_of_lt fits).symm
    simp only [readValue, Payload.wireType, Payload.body, List.append_assoc,
      readVarint_varintOfNat fits, takeExactly_append sized, bind, Except.bind, pure, Except.pure]
  | group =>
    obtain ⟨fuel, rfl⟩ : ∃ f, fuel = f + 1 :=
      ⟨fuel - 1, by
        have := varintOfNat_ne_nil (num * 8 + 4)
        simp only [Payload.body, tag] at enough
        cases h : varintOfNat (num * 8 + 4) with
        | nil => exact absurd h this
        | cons _ _ => rw [h] at enough; simp at enough; omega⟩
    simp only [readValue, Payload.wireType, Payload.body, Nat.add_sub_cancel, readValue.skipGroup,
      readTag_tag positive below (by decide : 4 < 8)]
    simp only [bind, Except.bind, pure, Except.pure, if_pos]
    exact if_neg (Nat.succ_ne_zero depth)
  | fixed32 v =>
    simp only [readValue, Payload.wireType, Payload.body,
      takeExactly_append (Bytes.length_littleEndian 4 _), bind, Except.bind, pure, Except.pure,
      Bytes.toUInt32_readLittleEndian]

/-- A field reads back as itself, and what follows it is left over. -/
theorem readField_encode {f : Field} (readable : f.Readable) (rest : Bytes) :
    readField (f.encode ++ rest) = .ok (f, rest) := by
  have body := readValue_body f readable.num_pos readable.num_lt readable.short
    (f.payload.body f.num ++ rest).length 10000 (by simp) rest
  simp only [readField, Field.encode, List.append_assoc,
    readTag_tag readable.num_pos readable.num_lt (wireType_lt _), body]

/-! ## Messages -/

theorem length_encode_pos (f : Field) : 0 < f.encode.length := by
  have := varintOfNat_ne_nil (f.num * 8 + f.payload.wireType)
  simp only [Field.encode, tag, List.length_append]
  cases h : varintOfNat (f.num * 8 + f.payload.wireType) with
  | nil => exact absurd h this
  | cons _ _ => simp only [List.length_cons]; omega

theorem length_encode_le_of_mem {f : Field} {fs : List Field} (member : f ∈ fs) :
    f.encode.length ≤ (fs.flatMap Field.encode).length := by
  induction fs with
  | nil => cases member
  | cons g gs inductionHypothesis =>
    rw [List.flatMap_cons, List.length_append]
    cases member with
    | head => omega
    | tail _ later => have := inductionHypothesis later; omega

theorem length_le_length_flatMap_encode (fs : List Field) :
    fs.length ≤ (fs.flatMap Field.encode).length := by
  induction fs with
  | nil => simp
  | cons f fs inductionHypothesis =>
    rw [List.flatMap_cons, List.length_append, List.length_cons]
    have := length_encode_pos f
    omega

variable {σ : Type} (visit : σ → Field → Except Failure σ)

theorem foldFields_go_encode :
    ∀ (fs : List Field) (fuel : Nat) (s : σ), (∀ f ∈ fs, f.Readable) → fs.length < fuel →
      foldFields.go visit fuel s (fs.flatMap Field.encode) = fs.foldlM visit s
  | [], fuel, s, _, _ => by cases fuel <;> rfl
  | f :: fs, fuel + 1, s, readable, enough => by
    obtain ⟨x, xs, split⟩ : ∃ x xs, f.encode ++ fs.flatMap Field.encode = x :: xs := by
      cases h : f.encode ++ fs.flatMap Field.encode with
      | nil =>
        exact absurd (List.append_eq_nil_iff.1 h).1 (List.ne_nil_of_length_pos (length_encode_pos f))
      | cons x xs => exact ⟨x, xs, rfl⟩
    rw [List.flatMap_cons, split]
    simp only [foldFields.go]
    rw [← split, readField_encode (readable f (.head _)), List.foldlM_cons]
    simp only [bind, Except.bind]
    cases visit s f with
    | error e => rfl
    | ok s' =>
      exact foldFields_go_encode fs fuel s' (fun g member => readable g (.tail _ member))
        (by simp at enough; omega)

/-- A message of fields numbered from 1 to 2^31 - 1 is visited field by field. -/
theorem foldFields_encode {fs : List Field} (numbered : ∀ f ∈ fs, 0 < f.num ∧ f.num < 2 ^ 31)
    (short : (fs.flatMap Field.encode).length < 2 ^ 64) (init : σ) :
    foldFields visit init (fs.flatMap Field.encode) = fs.foldlM visit init := by
  apply foldFields_go_encode
  · intro f member
    exact ⟨(numbered f member).1, (numbered f member).2,
      Nat.lt_of_le_of_lt (length_encode_le_of_mem member) short⟩
  · have := length_le_length_flatMap_encode fs
    omega

end MarketData.Protobuf
