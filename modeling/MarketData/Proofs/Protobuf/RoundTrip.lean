import MarketData.Protobuf.Entity
import MarketData.Proofs.Layout
import MarketData.Proofs.Protobuf.Fields

/-!
# Protobuf messages read back

Every value the protobuf writer takes is read back: `decode_encode_normalize` says that the
message of an entity of any kind decodes, as that kind, to the entity in normal form, with every
empty side read back as not supplied. Nothing else is lost: texts are any bytes, ordinals any
32-bit value (those above 2^31 travel sign-extended), integers, words and amounts any value,
floats any bit pattern, and an optional value either arm.

The proof goes through the fields the writer lays out (`valueFields`): every writer is the
concatenation of `Field.encode` over a list of fields, so the reader visits exactly those
fields. Within a layout the field numbers of different slots are different, so each field is
taken by its own slot only. Read on top of any value, each slot ends up holding `readOnto` of
what it held and what was written for it: a side gets the levels written appended to its own,
and every other slot the normal form of what was written. Read into zeros, that is the normal
form of what was written (`readOnto_zero`).
-/

namespace MarketData.Protobuf

/-! ## The fields of a message -/

/-- The fields of a level: price and quantity. -/
def levelFieldList (l : Level) : List Field :=
  [⟨1, .fixed64 l.price.bits⟩, ⟨2, .fixed64 l.quantity.bits⟩]

/-- The fields of a pair: base and quote. -/
def pairFieldList (p : Pair) : List Field := [⟨1, .bytes p.base⟩, ⟨2, .bytes p.quote⟩]

/-- The fields of an amount: its low and high words. -/
def amountFieldList (u : UInt128) : List Field := [⟨1, .varint u.low⟩, ⟨2, .varint u.high⟩]

/-- The fields of a depth reading. -/
def depthFieldList (d : DepthLevel) : List Field :=
  [⟨1, .fixed64 d.percentage.bits⟩, ⟨2, .fixed64 d.bid.bits⟩, ⟨3, .fixed64 d.ask.bits⟩]

/-- The fields of a side under a number: one nested level each. -/
def sideFieldList (num : Nat) (l : Levels) : List Field :=
  l.toList.map fun x => ⟨num, .bytes (levelMessage x)⟩

/-- The fields of a book: the update identifier, then the bids, then the asks. -/
def bookFieldList (b : Orderbook) : List Field :=
  ⟨1, .varint b.updateId⟩ :: (sideFieldList 2 b.bids ++ sideFieldList 3 b.asks)

/-- The fields of a header. -/
def headerFieldList (h : Header) : List Field :=
  [⟨1, .varint (intWord h.timestamp)⟩, ⟨2, .bytes h.source⟩, ⟨3, .bytes h.publisher⟩]

/-- The fields a value of a shape is written as, under a number. -/
def valueFields (num : Nat) : (s : Shape) → s.Value → List Field
  | .text, v => [⟨num, .bytes v⟩]
  | .int, v => [⟨num, .varint (intWord v)⟩]
  | .word, v => [⟨num, .varint v⟩]
  | .float, v => [⟨num, .fixed64 v.bits⟩]
  | .amount, v => [⟨num, .bytes (amountMessage v)⟩]
  | .ordinal _, v => [⟨num, .varint (ordinalWord v.val)⟩]
  | .pair, v => [⟨num, .bytes (pairMessage v)⟩]
  | .depth, v => [⟨num, .bytes (depthMessage v)⟩]
  | .book, v => [⟨num, .bytes (bookMessage v)⟩]
  | .header, v => [⟨num, .bytes (headerMessage v)⟩]
  | .levels, v => sideFieldList num v
  | .optional _, none => [⟨num, .bytes []⟩]
  | .optional s, some v => valueFields (num + 1) s v

theorem varintField_eq (num : Nat) (v : UInt64) :
    varintField num v = Field.encode ⟨num, .varint v⟩ := rfl

theorem fixed64Field_eq (num : Nat) (v : UInt64) :
    fixed64Field num v = Field.encode ⟨num, .fixed64 v⟩ := rfl

theorem bytesField_eq (num : Nat) (b : Bytes) :
    bytesField num b = Field.encode ⟨num, .bytes b⟩ := by
  simp [bytesField, Field.encode, Payload.body, Payload.wireType]

theorem levelMessage_eq (l : Level) : levelMessage l = (levelFieldList l).flatMap Field.encode := by
  simp [levelMessage, levelFieldList, fixed64Field_eq]

theorem pairMessage_eq (p : Pair) : pairMessage p = (pairFieldList p).flatMap Field.encode := by
  simp [pairMessage, pairFieldList, bytesField_eq]

theorem amountMessage_eq (u : UInt128) : amountMessage u = (amountFieldList u).flatMap Field.encode := by
  simp [amountMessage, amountFieldList, varintField_eq]

theorem depthMessage_eq (d : DepthLevel) : depthMessage d = (depthFieldList d).flatMap Field.encode := by
  simp [depthMessage, depthFieldList, fixed64Field_eq]

theorem levelFields_eq (num : Nat) (l : Levels) :
    levelFields num l = (sideFieldList num l).flatMap Field.encode := by
  simp [levelFields, sideFieldList, bytesField_eq, List.flatMap_map]

theorem bookMessage_eq (b : Orderbook) : bookMessage b = (bookFieldList b).flatMap Field.encode := by
  simp [bookMessage, bookFieldList, varintField_eq, levelFields_eq]

theorem headerMessage_eq (h : Header) : headerMessage h = (headerFieldList h).flatMap Field.encode := by
  simp [headerMessage, headerFieldList, varintField_eq, bytesField_eq]

theorem encodeValue_eq (num : Nat) (s : Shape) (v : s.Value) :
    encodeValue num s v = (valueFields num s v).flatMap Field.encode := by
  induction s generalizing num with
  | optional s inductionHypothesis =>
    cases v with
    | none => rw [valueFields, List.flatMap_singleton]; exact bytesField_eq num []
    | some v => exact inductionHypothesis (num + 1) v
  | levels => exact levelFields_eq num v
  | int | word | float | ordinal => rw [valueFields, List.flatMap_singleton]; rfl
  | text | amount | pair | depth | book | header =>
    rw [valueFields, List.flatMap_singleton]; exact bytesField_eq num _

/-! ## Nested messages -/

theorem nested_bytes {σ : Type} {fs : List Field} (numbered : ∀ f ∈ fs, 0 < f.num ∧ f.num < 2 ^ 31)
    (short : (fs.flatMap Field.encode).length < 2 ^ 64) (num : Nat) (init : σ)
    (visit : σ → Field → Except Failure σ) :
    Field.nested ⟨num, .bytes (fs.flatMap Field.encode)⟩ init visit = fs.foldlM visit init :=
  foldFields_encode visit numbered short init

theorem length_levelMessage (l : Level) : (levelMessage l).length = 18 := by
  simp [levelMessage, fixed64Field, tag, varintOfNat_small, Bytes.length_littleEndian]

theorem readLevel_levelMessage (num : Nat) (l : Level) :
    readLevel ⟨num, .bytes (levelMessage l)⟩ = .ok l := by
  rw [readLevel, levelMessage_eq, nested_bytes (by simp [levelFieldList])
    (by rw [← levelMessage_eq, length_levelMessage]; decide)]
  rfl

theorem readPair_pairMessage (num : Nat) (p : Pair) (short : (pairMessage p).length < 2 ^ 64) :
    readPair ⟨num, .bytes (pairMessage p)⟩ = .ok p := by
  rw [pairMessage_eq] at short ⊢
  rw [readPair, nested_bytes (by simp [pairFieldList]) short]
  rfl

theorem readAmount_amountMessage (num : Nat) (u : UInt128) (short : (amountMessage u).length < 2 ^ 64) :
    readAmount ⟨num, .bytes (amountMessage u)⟩ = .ok u := by
  rw [amountMessage_eq] at short ⊢
  rw [readAmount, nested_bytes (by simp [amountFieldList]) short]
  rfl

theorem readDepth_depthMessage (num : Nat) (d : DepthLevel) (short : (depthMessage d).length < 2 ^ 64) :
    readDepth ⟨num, .bytes (depthMessage d)⟩ = .ok d := by
  rw [depthMessage_eq] at short ⊢
  rw [readDepth, nested_bytes (by simp [depthFieldList]) short]
  rfl

theorem readHeader_headerMessage (num : Nat) (h : Header) (short : (headerMessage h).length < 2 ^ 64) :
    readHeader ⟨num, .bytes (headerMessage h)⟩ = .ok h := by
  rw [headerMessage_eq] at short ⊢
  rw [readHeader, nested_bytes (by simp [headerFieldList]) short]
  rfl

/-! ## Sides -/

theorem foldl_appendLevel (side : Levels) :
    ∀ (xs : List Level), xs ≠ [] → xs.foldl appendLevel side = some (side.toList ++ xs)
  | [], nonempty => absurd rfl nonempty
  | [x], _ => rfl
  | x :: y :: rest, _ => by
    rw [List.foldl_cons, foldl_appendLevel _ (y :: rest) (List.cons_ne_nil _ _), appendLevel]
    simp [Levels.toList]

theorem foldl_appendLevel_none (xs : List Level) : xs.foldl appendLevel none = Levels.ofList xs := by
  cases xs with
  | nil => rfl
  | cons x rest =>
    rw [foldl_appendLevel none (x :: rest) (List.cons_ne_nil _ _)]
    rfl

/-- Reading a side one level field at a time appends the levels, in order, to what the side
held; `get` and `set` are the side of the value being read. -/
theorem foldlM_map_levelMessage {σ : Type} (visit : σ → Field → Except Failure σ)
    (get : σ → Levels) (set : Levels → σ → σ) (get_set : ∀ v a, get (set v a) = v)
    (set_get : ∀ a, set (get a) a = a) (set_set : ∀ v w a, set v (set w a) = set v a) (num : Nat)
    (step : ∀ acc x, visit acc ⟨num, .bytes (levelMessage x)⟩ = .ok (set (appendLevel (get acc) x) acc)) :
    ∀ (xs : List Level) (acc : σ),
      (xs.map fun x => ⟨num, .bytes (levelMessage x)⟩).foldlM visit acc =
        .ok (set (xs.foldl appendLevel (get acc)) acc)
  | [], acc => by rw [List.map_nil, List.foldlM_nil, List.foldl_nil, set_get]; rfl
  | x :: xs, acc => by
    rw [List.map_cons, List.foldlM_cons, step, List.foldl_cons]
    simp only [bind, Except.bind]
    rw [foldlM_map_levelMessage visit get set get_set set_get set_set num step xs, get_set, set_set]

/-- The fields of a book, read from the empty book by any visit that takes each of them as the
book reader does, give the book with its sides in normal form. -/
theorem foldlM_bookFieldList (visit : Orderbook → Field → Except Failure Orderbook)
    (updateId : ∀ acc u, visit acc ⟨1, .varint u⟩ = .ok { acc with updateId := u })
    (bid : ∀ acc x, visit acc ⟨2, .bytes (levelMessage x)⟩ = .ok { acc with bids := appendLevel acc.bids x })
    (ask : ∀ acc x, visit acc ⟨3, .bytes (levelMessage x)⟩ = .ok { acc with asks := appendLevel acc.asks x })
    (b : Orderbook) :
    (bookFieldList b).foldlM visit {} = .ok (Shape.normal .book b) := by
  rw [bookFieldList, List.foldlM_cons, updateId]
  simp only [bind, Except.bind]
  rw [List.foldlM_append, sideFieldList,
    foldlM_map_levelMessage visit (·.bids) (fun v o => { o with bids := v }) (fun _ _ => rfl)
      (fun _ => rfl) (fun _ _ _ => rfl) 2 bid]
  simp only [bind, Except.bind]
  rw [sideFieldList,
    foldlM_map_levelMessage visit (·.asks) (fun v o => { o with asks := v }) (fun _ _ => rfl)
      (fun _ => rfl) (fun _ _ _ => rfl) 3 ask]
  simp only [foldl_appendLevel_none]
  rfl

theorem readBook_bookMessage (num : Nat) (b : Orderbook) (short : (bookMessage b).length < 2 ^ 64) :
    readBook ⟨num, .bytes (bookMessage b)⟩ = .ok (Shape.normal .book b) := by
  have numbered : ∀ f ∈ bookFieldList b, 0 < f.num ∧ f.num < 2 ^ 31 := by
    intro f member
    simp only [bookFieldList, sideFieldList, List.mem_cons, List.mem_append, List.mem_map] at member
    rcases member with rfl | ⟨_, _, rfl⟩ | ⟨_, _, rfl⟩ <;> simp
  rw [bookMessage_eq] at short ⊢
  rw [readBook, nested_bytes numbered short]
  refine foldlM_bookFieldList _ (fun _ _ => rfl) (fun acc x => ?_) (fun acc x => ?_) b
  · show (do let l ← readLevel ⟨2, .bytes (levelMessage x)⟩; pure { acc with bids := appendLevel acc.bids l }) = _
    rw [readLevel_levelMessage]
    rfl
  · show (do let l ← readLevel ⟨3, .bytes (levelMessage x)⟩; pure { acc with asks := appendLevel acc.asks l }) = _
    rw [readLevel_levelMessage]
    rfl

/-! ## Values of one field -/

theorem toUInt32_ordinalWord (v : UInt32) : (ordinalWord v).toUInt32 = v := by
  unfold ordinalWord
  split
  · simp
  · -- sign extension adds 2^64 - 2^32, which the low 32 bits do not see
    apply UInt32.toNat_inj.1
    have := v.toNat_lt
    simp only [UInt64.toNat_toUInt32, Nat.toUInt64_eq, UInt64.toNat_ofNat', Nat.pow_eq,
      Nat.reducePow]
    omega

theorem length_lt_of_bytes {num : Nat} {b : Bytes}
    (short : (([⟨num, .bytes b⟩] : List Field).flatMap Field.encode).length < 2 ^ 64) :
    b.length < 2 ^ 64 := by
  have := varintOfNat_ne_nil (num * 8 + 2)
  simp only [List.flatMap_singleton, Field.encode, Payload.body, tag, Payload.wireType,
    List.length_append] at short
  cases h : varintOfNat (num * 8 + 2) with
  | nil => exact absurd h this
  | cons _ _ => rw [h, List.length_cons] at short; omega

theorem decodeValue_valueFields {s : Shape} (single : s.isPlain = true ∨ s = .book) (num : Nat)
    (v : s.Value) (short : ((valueFields num s v).flatMap Field.encode).length < 2 ^ 64) :
    ∃ p, valueFields num s v = [⟨num, p⟩] ∧ decodeValue ⟨num, p⟩ s = .ok (s.normal v) := by
  cases s with
  | text | int | word | float => exact ⟨_, rfl, rfl⟩
  | ordinal =>
    refine ⟨_, rfl, ?_⟩
    simp only [decodeValue, Field.varint, Except.map, toUInt32_ordinalWord]
    rfl
  | amount => exact ⟨_, rfl, readAmount_amountMessage num v (length_lt_of_bytes short)⟩
  | pair => exact ⟨_, rfl, readPair_pairMessage num v (length_lt_of_bytes short)⟩
  | depth => exact ⟨_, rfl, readDepth_depthMessage num v (length_lt_of_bytes short)⟩
  | header => exact ⟨_, rfl, readHeader_headerMessage num v (length_lt_of_bytes short)⟩
  | book => exact ⟨_, rfl, readBook_bookMessage num v (length_lt_of_bytes short)⟩
  | levels => simp [Shape.isPlain] at single
  | optional => simp [Shape.isPlain] at single

/-! ## Slots -/

section Slots

variable {α : Type}

/-- The field numbers a slot takes: an optional field also takes the next number, for its
payload arm. -/
def slotNumbers (slot : Slot α) : List Nat :=
  match slot.shape with
  | .optional _ => [slot.id, slot.id + 1]
  | _ => [slot.id]

theorem absorb_of_not_mem {slot : Slot α} {f : Field} (other : f.num ∉ slotNumbers slot) (a : α) :
    absorb f a slot = .ok a := by
  obtain ⟨id, key, shape, get, set⟩ := slot
  cases shape <;> simp_all [absorb, slotNumbers, pure, Except.pure]

theorem valueFields_of_isPlain {s : Shape} (plain : s.isPlain = true) (num : Nat) (v : s.Value) :
    ∃ p, valueFields num s v = [⟨num, p⟩] := by
  cases s with
  | levels | book | optional => simp [Shape.isPlain] at plain
  | text | int | word | float | amount | ordinal | pair | depth | header => exact ⟨_, rfl⟩

theorem num_mem_slotNumbers {slot : Slot α} (plain : slot.shape.optionalPlain = true)
    (v : slot.shape.Value) : ∀ f ∈ valueFields slot.id slot.shape v, f.num ∈ slotNumbers slot := by
  obtain ⟨id, key, shape, get, set⟩ := slot
  cases shape with
  | levels => simp [valueFields, sideFieldList, slotNumbers]
  | optional s =>
    cases v with
    | none => simp [valueFields, slotNumbers]
    | some v =>
      obtain ⟨p, single⟩ := valueFields_of_isPlain plain (id + 1) v
      simp [valueFields, single, slotNumbers]
  | _ => simp [valueFields, slotNumbers]

/-- What a slot holds once the fields written for `new` are read on top of `old`: a side gets the
levels of `new` appended to its own, and every other value becomes the normal form of `new`. -/
def readOnto : (s : Shape) → s.Value → s.Value → s.Value
  | .levels, old, new => new.toList.foldl appendLevel old
  | s, _, new => s.normal new

/-- Read on top of a slot's zero, what was written reads as its normal form. -/
theorem readOnto_zero (s : Shape) (new : s.Value) : readOnto s s.zero new = s.normal new := by
  cases s with
  | levels => exact foldl_appendLevel_none new.toList
  | _ => rfl

/-- The fields a slot writes, read on top of any value, leave the slot holding `readOnto` of
what it held and what was written. -/
theorem foldlM_absorb_onto (slot : Slot α) (lawful : slot.Lawful)
    (plain : slot.shape.optionalPlain = true) (v : slot.shape.Value) (acc : α)
    (short : ((valueFields slot.id slot.shape v).flatMap Field.encode).length < 2 ^ 64) :
    (valueFields slot.id slot.shape v).foldlM (fun a f => absorb f a slot) acc =
      .ok (slot.set (readOnto slot.shape (slot.get acc) v) acc) := by
  obtain ⟨id, key, shape, get, set⟩ := slot
  cases shape with
  | levels =>
    have step : ∀ a x, absorb ⟨id, .bytes (levelMessage x)⟩ a ⟨id, key, .levels, get, set⟩ =
        .ok (set (appendLevel (get a) x) a) := by
      intro a x
      simp only [absorb, if_pos, readLevel_levelMessage]
      rfl
    dsimp only [valueFields, sideFieldList]
    rw [foldlM_map_levelMessage _ get set lawful.get_set lawful.set_get lawful.set_set id step]
    rfl
  | optional s =>
    cases v with
    | none =>
      simp only [valueFields, List.foldlM_cons, List.foldlM_nil, absorb, if_pos]
      rfl
    | some w =>
      obtain ⟨p, single⟩ := valueFields_of_isPlain plain (id + 1) w
      obtain ⟨q, fields, decoded⟩ :=
        decodeValue_valueFields (.inl plain) (id + 1) w (by simpa [valueFields] using short)
      rw [single] at fields
      cases fields
      simp only [valueFields, single, List.foldlM_cons, List.foldlM_nil, absorb,
        if_neg (Nat.succ_ne_self id), if_pos, decoded, Shape.normal_of_isPlain plain]
      rfl
  | book =>
    obtain ⟨p, fields, decoded⟩ := decodeValue_valueFields (.inr rfl) id v short
    simp only [fields, List.foldlM_cons, List.foldlM_nil, absorb, if_pos, decoded]
    rfl
  | text | int | word | float | amount | ordinal | pair | depth | header =>
    obtain ⟨p, fields, decoded⟩ := decodeValue_valueFields (.inl rfl) id v short
    simp only [fields, List.foldlM_cons, List.foldlM_nil, absorb, if_pos, decoded]
    rfl

/-- The fields a slot writes, taken by that slot, store the normal form of the value written;
a side starts out not supplied. -/
theorem foldlM_absorb_valueFields (slot : Slot α) (lawful : slot.Lawful)
    (plain : slot.shape.optionalPlain = true) (v : slot.shape.Value) (acc : α)
    (zero : slot.get acc = slot.shape.zero)
    (short : ((valueFields slot.id slot.shape v).flatMap Field.encode).length < 2 ^ 64) :
    (valueFields slot.id slot.shape v).foldlM (fun a f => absorb f a slot) acc =
      .ok (slot.set (slot.shape.normal v) acc) := by
  rw [foldlM_absorb_onto slot lawful plain v acc short, zero, readOnto_zero]

theorem foldlM_congr_of_mem {β γ : Type} {F G : β → γ → Except Failure β} :
    ∀ {xs : List γ}, (∀ x ∈ xs, ∀ a, F a x = G a x) → ∀ a, xs.foldlM F a = xs.foldlM G a
  | [], _, _ => rfl
  | x :: xs, agree, a => by
    rw [List.foldlM_cons, List.foldlM_cons, agree x (.head _) a]
    cases G a x with
    | error e => rfl
    | ok b => exact foldlM_congr_of_mem (fun y member => agree y (.tail _ member)) b

theorem foldlM_absorb_of_not_mem {f : Field} :
    ∀ {layout : List (Slot α)}, (∀ s ∈ layout, f.num ∉ slotNumbers s) →
      ∀ a, layout.foldlM (fun a s => absorb f a s) a = .ok a
  | [], _, _ => rfl
  | s :: rest, other, a => by
    rw [List.foldlM_cons, absorb_of_not_mem (other s (.head _))]
    exact foldlM_absorb_of_not_mem (fun t member => other t (.tail _ member)) a

theorem foldlM_absorb_layout {f : Field} :
    ∀ {layout : List (Slot α)}, (layout.flatMap slotNumbers).Nodup →
      ∀ {slot : Slot α}, slot ∈ layout → f.num ∈ slotNumbers slot →
        ∀ a, layout.foldlM (fun a s => absorb f a s) a = absorb f a slot
  | [], _, _, member, _, _ => nomatch member
  | t :: rest, nodup, slot, member, taken, a => by
    rw [List.flatMap_cons, List.nodup_append] at nodup
    obtain ⟨-, nodupRest, apart⟩ := nodup
    rw [List.foldlM_cons]
    by_cases mine : f.num ∈ slotNumbers t
    · -- the field is the head slot's, so no later slot takes it
      have rest : ∀ s ∈ rest, f.num ∉ slotNumbers s :=
        fun s later theirs => apart _ mine _ (List.mem_flatMap.2 ⟨s, later, theirs⟩) rfl
      cases member with
      | head =>
        cases absorb f a t with
        | error e => rfl
        | ok b => exact foldlM_absorb_of_not_mem rest b
      | tail _ later => exact absurd taken (rest slot later)
    · rw [absorb_of_not_mem mine]
      cases member with
      | head => exact absurd taken mine
      | tail _ later => exact foldlM_absorb_layout nodupRest later taken a

/-- The fields a layout writes, slot by slot. -/
def layoutFields (layout : List (Slot α)) (a : α) : List Field :=
  layout.flatMap fun slot => valueFields slot.id slot.shape (slot.get a)

theorem encodeSlots_eq (layout : List (Slot α)) (a : α) :
    encodeSlots layout a = (layoutFields layout a).flatMap Field.encode := by
  simp only [encodeSlots, layoutFields, List.flatMap_assoc, encodeValue_eq]

/-- Reading the fields of the slots `slots` of `layout` on top of a value stores, slot by slot,
`readOnto` of what the slot held in `start` and what was written. The induction runs over the
slots read so far; independence keeps every slot still to come as it was in `start`. -/
theorem foldlM_layoutFields_onto {layout : List (Slot α)} (nodup : (layout.flatMap slotNumbers).Nodup)
    (v start : α) :
    ∀ {slots : List (Slot α)}, (∀ s ∈ slots, s ∈ layout) → Layout.Lawful slots →
      (∀ s ∈ slots, s.shape.optionalPlain = true) →
      ∀ acc, (∀ s ∈ slots, s.get acc = s.get start) →
        ((layoutFields slots v).flatMap Field.encode).length < 2 ^ 64 →
        (layoutFields slots v).foldlM (fun a f => layout.foldlM (fun a s => absorb f a s) a) acc =
          .ok (Layout.fill slots (fun s => readOnto s.shape (s.get start) (s.get v)) acc)
  | [], _, _, _, _, _, _ => rfl
  | s :: slots, within, lawful, plain, acc, same, short => by
    rw [layoutFields, List.flatMap_cons, ← layoutFields, List.flatMap_append, List.length_append]
      at short
    obtain ⟨apart, independent⟩ := List.pairwise_cons.1 lawful.independent
    have taken : (valueFields s.id s.shape (s.get v)).foldlM
        (fun a f => layout.foldlM (fun a s => absorb f a s) a) acc =
          .ok (s.set (readOnto s.shape (s.get start) (s.get v)) acc) := by
      rw [foldlM_congr_of_mem fun f member a => foldlM_absorb_layout nodup (within s (.head _))
        (num_mem_slotNumbers (plain s (.head _)) _ f member) a, ← same s (.head _)]
      exact foldlM_absorb_onto s (lawful.slots s (.head _)) (plain s (.head _)) _ acc (by omega)
    have later : ∀ t ∈ slots,
        t.get (s.set (readOnto s.shape (s.get start) (s.get v)) acc) = t.get start := by
      intro t member
      rw [(apart t member).2]
      exact same t (.tail _ member)
    rw [layoutFields, List.flatMap_cons, List.foldlM_append, ← layoutFields, taken, Layout.fill_cons]
    exact foldlM_layoutFields_onto nodup v start (fun t member => within t (.tail _ member))
      ⟨fun t member => lawful.slots t (.tail _ member), independent⟩
      (fun t member => plain t (.tail _ member)) _ later (by omega)

/-- Reading the fields of the slots `slots` of `layout` into a value that holds the zero of each
of them stores each slot's normal value in turn. -/
theorem foldlM_layoutFields {layout : List (Slot α)} (nodup : (layout.flatMap slotNumbers).Nodup)
    (v : α) {slots : List (Slot α)} (within : ∀ s ∈ slots, s ∈ layout) (lawful : Layout.Lawful slots)
    (plain : ∀ s ∈ slots, s.shape.optionalPlain = true) (acc : α)
    (zero : ∀ s ∈ slots, s.get acc = s.shape.zero)
    (short : ((layoutFields slots v).flatMap Field.encode).length < 2 ^ 64) :
    (layoutFields slots v).foldlM (fun a f => layout.foldlM (fun a s => absorb f a s) a) acc =
      .ok (Layout.fill slots (fun s => s.shape.normal (s.get v)) acc) := by
  rw [foldlM_layoutFields_onto nodup v acc within lawful plain acc (fun _ _ => rfl) short]
  congr 1
  exact Layout.fill_congr (fun s member => by rw [zero s member, readOnto_zero]) acc

/-- A lawful layout whose slots take distinct field numbers reads back what it writes, up to
the normal form of each slot, provided the reader starts from zeros and the message is one
that varints can measure. -/
theorem decodeSlots_encodeSlots {layout : List (Slot α)} (lawful : Layout.Lawful layout)
    (nodup : (layout.flatMap slotNumbers).Nodup)
    (inRange : ∀ n ∈ layout.flatMap slotNumbers, 0 < n ∧ n < 2 ^ 31)
    (plain : ∀ s ∈ layout, s.shape.optionalPlain = true) {init : α}
    (zero : ∀ s ∈ layout, s.get init = s.shape.zero) (v : α)
    (short : (encodeSlots layout v).length < 2 ^ 64) :
    decodeSlots layout init (encodeSlots layout v) =
      .ok (Layout.fill layout (fun s => s.shape.normal (s.get v)) init) := by
  rw [encodeSlots_eq] at short ⊢
  have numbered : ∀ f ∈ layoutFields layout v, 0 < f.num ∧ f.num < 2 ^ 31 := by
    intro f member
    obtain ⟨s, within, own⟩ := List.mem_flatMap.1 member
    exact inRange _ (List.mem_flatMap.2 ⟨s, within, num_mem_slotNumbers (plain s within) _ f own⟩)
  rw [decodeSlots, foldFields_encode _ numbered short]
  exact foldlM_layoutFields nodup v (fun _ member => member) lawful plain init zero short

end Slots

theorem layout_numbered (k : EntityKind) :
    (k.layout.flatMap slotNumbers).Nodup ∧ ∀ n ∈ k.layout.flatMap slotNumbers, 0 < n ∧ n < 2 ^ 31 := by
  cases k <;> decide

/-- Every entity whose message varints can measure reads back as its normal form. -/
theorem decode_encode_normalize (e : Entity) (short : (encode e).length < 2 ^ 64) :
    decode e.kind (encode e) = .ok (e.kind.normalize e.value) := by
  obtain ⟨nodup, inRange⟩ := layout_numbered e.kind
  rw [decode, encode, decodeSlots_encodeSlots (EntityKind.layout_lawful _) nodup inRange
    (EntityKind.optionalPlain_layout _) (EntityKind.get_empty _) _ short, EntityKind.fill_normal]

/-- A price with both arms present, an ordinal above `Int32.max`, texts that are no UTF-8 and the
high word of an amount set reads back as it is; a book that supplies an empty bid side and asks at
a NaN with a payload and at -0 reads back with the bid side not supplied. -/
theorem decode_encode_arms_and_sides :
    decode .price (encode ⟨.price,
        { source := [0xFF, 0xFE], chain := some ⟨0xFFFFFFFF⟩, pair := ⟨[0x42], [0xC0]⟩,
          timestamp := -1, price := ⟨1, 0x8000000000000000⟩, expiration := some (-7) }⟩) =
        .ok
          { source := [0xFF, 0xFE], chain := some ⟨0xFFFFFFFF⟩, pair := ⟨[0x42], [0xC0]⟩,
            timestamp := -1, price := ⟨1, 0x8000000000000000⟩, expiration := some (-7) } ∧
      decode .snapshot (encode ⟨.snapshot,
        { base := ⟨-3, [0x41], [0xC3, 0x28]⟩, instrumentType := ⟨0x80000000⟩,
          lastUpdateId := 0xFFFFFFFFFFFFFFFF, bids := some [],
          asks := some [⟨⟨0x7FF8000000000001⟩, ⟨0x8000000000000000⟩⟩] }⟩) =
        .ok
          { base := ⟨-3, [0x41], [0xC3, 0x28]⟩, instrumentType := ⟨0x80000000⟩,
            lastUpdateId := 0xFFFFFFFFFFFFFFFF,
            asks := some [⟨⟨0x7FF8000000000001⟩, ⟨0x8000000000000000⟩⟩] } := by
  have shortPrice : (encode ⟨.price,
      { source := [0xFF, 0xFE], chain := some ⟨0xFFFFFFFF⟩, pair := ⟨[0x42], [0xC0]⟩,
        timestamp := -1, price := ⟨1, 0x8000000000000000⟩, expiration := some (-7) }⟩).length < 2 ^ 64 := by
    decide +kernel
  have shortBook : (encode ⟨.snapshot,
      { base := ⟨-3, [0x41], [0xC3, 0x28]⟩, instrumentType := ⟨0x80000000⟩,
        lastUpdateId := 0xFFFFFFFFFFFFFFFF, bids := some [],
        asks := some [⟨⟨0x7FF8000000000001⟩, ⟨0x8000000000000000⟩⟩] }⟩).length < 2 ^ 64 := by
    decide +kernel
  exact ⟨decode_encode_normalize _ shortPrice, decode_encode_normalize _ shortBook⟩

end MarketData.Protobuf
