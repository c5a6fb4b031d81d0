import MarketData.Text.Bytes

/-!
Repetition and definition levels: the run-length and bit-packed hybrid encoding.

The levels of a page are a little-endian 32-bit byte count followed by that many bytes of runs.
Each run opens with a varint header. An even header is a repeated run: header / 2 copies of
one value stored in the next `⌈width / 8⌉` bytes. An odd header is a bit-packed run of
header / 2 groups of eight values, `width` bits each, packed from the least significant bit of
each byte. Runs are read until the counted bytes are used up; a run that needs more bytes than
are left is refused.
-/

namespace MarketData.Parquet

/-- Splits off the first `n` bytes; refused when fewer remain. -/
def takeExact (n : Nat) (input : Bytes) : Option (Bytes × Bytes) :=
  if input.length < n then none else some (input.take n, input.drop n)

/-- A varint at the front of the input; bits past 64 are lost. -/
def levelVarint : Bytes → Option (Nat × Bytes)
  | [] => none
  | b :: rest =>
    if b < 0x80 then some (b.toNat, rest)
    else (levelVarint rest).map fun (v, after) => ((b.toNat % 128 + 128 * v) % Nat.pow 2 64, after)

theorem levelVarint_length {input rest : Bytes} {v : Nat} (h : levelVarint input = some (v, rest)) :
    rest.length < input.length := by
  induction input generalizing v with
  | nil => simp [levelVarint] at h
  | cons b tail ih =>
    simp only [levelVarint] at h
    split at h
    · simp_all
    · obtain ⟨⟨w, after⟩, hw, he⟩ := Option.map_eq_some_iff.1 h
      simp only [Prod.mk.injEq] at he
      obtain ⟨-, rfl⟩ := he
      have := ih hw
      simp only [List.length_cons]
      omega

/-- The values of `width` bits packed in some bytes, least significant bit first. -/
def unpack (width : Nat) (bytes : Bytes) (count : Nat) : List Nat :=
  let n := Bytes.readLittleEndian bytes
  (List.range count).map fun i => n / Nat.pow 2 (i * width) % Nat.pow 2 width

/-- The first `need` values of the runs of the hybrid encoding; all runs are read until the
input is used up. -/
def runs (width need : Nat) (input : Bytes) : Option (List Nat) :=
  match h : levelVarint input with
  | none => if input.isEmpty then some [] else none
  | some (header, body) =>
    have : body.length < input.length := levelVarint_length h
    if header % 2 = 0 then do
      let count := min (header / 2) need
      let (valueBytes, rest) ← takeExact ((width + 7) / 8) body
      let tail ← if _ : rest.length < input.length then runs width (need - count) rest else none
      pure (List.replicate count (Bytes.readLittleEndian (valueBytes.take 4)) ++ tail)
    else do
      let count := min (header / 2 * 8) need
      let (packed, rest) ← takeExact (header / 2 * width) body
      let tail ← if _ : rest.length < input.length then runs width (need - count) rest else none
      pure (unpack width packed count ++ tail)
termination_by input.length

/-- The first `need` levels at the front of a page, with the bytes after them: a four-byte
count and the runs in that many bytes. -/
def levels (width need : Nat) (input : Bytes) : Option (List Nat × Bytes) := do
  let (size, rest) ← takeExact 4 input
  let (body, rest) ← takeExact (Bytes.readLittleEndian size) rest
  pure (← runs width need body, rest)

/-- The number of bits needed for levels up to a maximum. -/
def levelWidth (maxLevel : Nat) : Nat := if maxLevel = 0 then 0 else Nat.log2 maxLevel + 1

end MarketData.Parquet
