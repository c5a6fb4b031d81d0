import MarketData.Proofs.Protobuf.Walk

/-!
# Messages the reader accepts

The field tables of `Schema.live` say which messages an entity's reader takes, without looking
at the reader. A message of a table is a sequence of fields (`Splits`), and every field whose
number is a row's has the wire type of the row's kind; a field of a kind that holds a message
(an amount, a structure, an element of a list) holds a message of the table it names, and the
void arm of a union holds any sequence of fields. Fields of numbers no row has are not looked
at (`messageAccepts`).

The reader of every entity fails exactly on the messages its table does not accept, and every
failure is a malformed payload (`decode_fails_iff_rejected`).

The proof pairs each reader with its table. A reader of one field succeeds or fails whatever it
has read before (`Decides`), so a walk over a message succeeds exactly when every field it meets
is accepted. Each nested reader decides the fields of its own table, and each slot of a layout
decides the rows it stands for (`shapeRows`), which are, slot after slot, the rows of the
entity's table.
-/

namespace MarketData.Protobuf

open Schema (Catalog Table Kind)

/-! ## The messages a table describes -/

/-- Whether a field is one a row of kind `k` naming `type` takes: it has the kind's wire type,
and a kind that holds a message holds one that `message` takes for the table it names. A void
arm's message may hold any fields. -/
def kindAccepts (message : String → Bytes → Bool) (k : Kind) (type : String) (f : Field) : Bool :=
  match k, f.payload with
  | .void, .bytes b => (fieldsRead b).isOk
  | .uint128, .bytes b => message "UInt128" b
  | .struct, .bytes b => message type b
  | .list, .bytes b => message type b
  | k, p => p.wireType == k.wireType

/-- Whether a field is one a row of the kind and type named takes; a row of no known kind takes
none. -/
def rowAccepts (message : String → Bytes → Bool) (kind type : String) (f : Field) : Bool :=
  match Kind.ofName? kind with
  | some k => kindAccepts message k type f
  | none => false

/-- Whether a message is one of the table named `name`: it splits into fields, and every field
with the number of a row is one that row takes. A nested message is looked at one level deeper,
and nothing past the given depth is accepted. -/
def tableAccepts (c : Catalog) : Nat → String → Bytes → Bool
  | 0, _, _ => false
  | depth + 1, name, b =>
    match c.table? name, fieldsRead b with
    | some t, .ok fs =>
      fs.all fun f => t.fields.all fun row =>
        row.id.toNat != f.num || rowAccepts (tableAccepts c depth) row.kind row.type f
    | _, _ => false

/-- Whether a message is one of the table named `name` in a catalog. No table nests itself, so
nesting goes no deeper than there are tables. -/
def messageAccepts (c : Catalog) (name : String) (b : Bytes) : Bool :=
  tableAccepts c c.tables.length name b

theorem tableAccepts_succ {c : Catalog} {depth : Nat} {name : String} {t : Table}
    (found : c.table? name = some t) (b : Bytes) :
    tableAccepts c (depth + 1) name b = true ↔
      ∃ fs, Splits b fs ∧ ∀ f ∈ fs, ∀ row ∈ t.fields, row.id.toNat = f.num →
        rowAccepts (tableAccepts c depth) row.kind row.type f = true := by
  rw [tableAccepts, found]
  cases read : fieldsRead b with
  | error e =>
    simp only [Bool.false_eq_true, false_iff, not_exists, not_and]
    intro fs split
    rw [fieldsRead_eq_ok_iff.2 split] at read
    cases read
  | ok fs =>
    have split := fieldsRead_eq_ok_iff.1 read
    simp only [List.all_eq_true, Bool.or_eq_true, bne_iff_ne, ne_eq]
    constructor
    · intro accepted
      exact ⟨fs, split, fun f member row row_member same =>
        (accepted f member row row_member).resolve_left (not_not.2 same)⟩
    · rintro ⟨fs', split', accepted⟩
      cases split.unique split'
      intro f member row row_member
      by_cases same : row.id.toNat = f.num
      · exact .inr (accepted f member row row_member same)
      · exact .inl same

theorem kindAccepts_scalar {k : Kind} (scalar : k ≠ .void ∧ k ≠ .uint128 ∧ k ≠ .struct ∧ k ≠ .list)
    (message : String → Bytes → Bool) (type : String) (f : Field) :
    kindAccepts message k type f = true ↔ f.payload.wireType = k.wireType := by
  obtain ⟨num, payload⟩ := f
  cases k <;> simp only [ne_eq, not_true_eq_false, false_and, and_false] at scalar <;>
    cases payload <;> simp [kindAccepts]

theorem kindAccepts_nested {k : Kind} (nested : k = .uint128 ∨ k = .struct ∨ k = .list)
    (message : String → Bytes → Bool) (type : String) (f : Field) :
    kindAccepts message k type f = true ↔
      ∃ b, f.payload = .bytes b ∧ message (if k = .uint128 then "UInt128" else type) b = true := by
  obtain ⟨num, payload⟩ := f
  rcases nested with rfl | rfl | rfl <;> cases payload <;> simp [kindAccepts, Payload.wireType, Kind.wireType]

theorem kindAccepts_void (message : String → Bytes → Bool) (type : String) (f : Field) :
    kindAccepts message .void type f = true ↔ ∃ b, f.payload = .bytes b ∧ ∃ fs, Splits b fs := by
  obtain ⟨num, payload⟩ := f
  cases payload <;> simp [kindAccepts, Payload.wireType, Kind.wireType]
  rename_i b
  cases read : fieldsRead b with
  | error e =>
    simp only [Except.isOk, Except.toBool, Bool.false_eq_true, false_iff, not_exists]
    intro fs split
    rw [fieldsRead_eq_ok_iff.2 split] at read
    cases read
  | ok fs => exact ⟨fun _ => ⟨fs, fieldsRead_eq_ok_iff.1 read⟩, fun _ => rfl⟩

/-! ## Readers that decide their fields -/

@[simp] theorem map_isOk {α γ : Type} (h : α → γ) (y : Except Failure α) :
    (∃ x, h <$> y = .ok x) ↔ ∃ v, y = .ok v := by
  cases y <;> simp [Functor.map, Except.map]

@[simp] theorem map_eq_error {α γ : Type} (h : α → γ) (y : Except Failure α) (e : Failure) :
    h <$> y = .error e ↔ y = .error e := by
  cases y <;> simp [Functor.map, Except.map]


section Decides

variable {σ β : Type}

/-- A reader of one field that succeeds exactly on the fields `accepts` takes and fails only with
a malformed payload. -/
structure Decides (read : Field → Except Failure β) (accepts : Field → Prop) : Prop where
  isOk : ∀ g, (∃ x, read g = .ok x) ↔ accepts g
  malformed : ∀ g e, read g = .error e → e.code? = some .malformedPayload

theorem Decides.congr {read : Field → Except Failure β} {accepts accepts' : Field → Prop}
    (decides : Decides read accepts) (same : ∀ g, accepts g ↔ accepts' g) : Decides read accepts' :=
  ⟨fun g => (decides.isOk g).trans (same g), decides.malformed⟩

theorem decides_bytes : Decides Field.bytes fun g => g.payload.wireType = 2 := by
  constructor <;> rintro ⟨num, payload⟩ <;> cases payload <;> simp [Field.bytes, Payload.wireType] <;> rfl

theorem decides_varint : Decides Field.varint fun g => g.payload.wireType = 0 := by
  constructor <;> rintro ⟨num, payload⟩ <;> cases payload <;> simp [Field.varint, Payload.wireType] <;> rfl

theorem decides_float : Decides Field.float fun g => g.payload.wireType = 1 := by
  constructor <;> rintro ⟨num, payload⟩ <;> cases payload <;>
    simp [Field.float, Field.fixed64, Payload.wireType, Except.map] <;> rfl

/-- A fold whose every step succeeds or fails whatever the state succeeds exactly when every
step does. -/
theorem foldlM_isOk {γ : Type} {step : σ → γ → Except Failure σ} {accepts : γ → Prop}
    (each : ∀ s x, (∃ s', step s x = .ok s') ↔ accepts x) :
    ∀ (xs : List γ) (s : σ), (∃ r, xs.foldlM step s = .ok r) ↔ ∀ x ∈ xs, accepts x
  | [], s => by simp
  | x :: xs, s => by
    rw [List.forall_mem_cons, ← each s x]
    simp only [List.foldlM_cons, bind_eq_ok]
    constructor
    · rintro ⟨r, s', stepped, folded⟩
      exact ⟨⟨s', stepped⟩, (foldlM_isOk each xs s').1 ⟨r, folded⟩⟩
    · rintro ⟨⟨s', stepped⟩, rest⟩
      obtain ⟨r, folded⟩ := (foldlM_isOk each xs s').2 rest
      exact ⟨r, s', stepped, folded⟩

theorem foldlM_malformed {γ : Type} {step : σ → γ → Except Failure σ}
    (each : ∀ s x e, step s x = .error e → e.code? = some .malformedPayload) :
    ∀ (xs : List γ) (s : σ) (e : Failure), xs.foldlM step s = .error e →
      e.code? = some .malformedPayload
  | [], _, _, folded => by cases folded
  | x :: xs, s, e, folded => by
    rw [List.foldlM_cons] at folded
    rcases bind_eq_error.1 folded with refused | ⟨s', _, folded⟩
    · exact each s x e refused
    · exact foldlM_malformed each xs s' e folded

theorem Decides.map {read : Field → Except Failure β} {accepts : Field → Prop} {γ : Type}
    (decides : Decides read accepts) (h : β → γ) : Decides (fun g => (read g).map h) accepts := by
  constructor
  · intro g
    rw [← decides.isOk g]
    cases read g <;> simp [Except.map]
  · intro g e refused
    cases reading : read g with
    | error e' =>
      rw [reading] at refused
      cases refused
      exact decides.malformed g _ reading
    | ok x =>
      rw [reading] at refused
      cases refused

theorem decides_guarded {read : Field → Except Failure β} {accepts : Field → Prop}
    (decides : Decides read accepts) (id : Nat) (h : β → σ) (a : σ) :
    Decides (fun g => if g.num = id then read g >>= fun v => pure (h v) else pure a)
      fun g => g.num = id → accepts g := by
  constructor
  · intro g
    by_cases own : g.num = id
    · rw [if_pos own, ← decides.isOk g]
      simp [own]
    · rw [if_neg own]
      simp [own]
  · intro g e refused
    split at refused
    · rcases bind_eq_error.1 refused with refused | ⟨_, _, refused⟩
      · exact decides.malformed g e refused
      · cases refused
    · cases refused

theorem decides_pure (x : β) : Decides (fun _ => (pure x : Except Failure β)) fun _ => True :=
  ⟨fun _ => ⟨fun _ => True.intro, fun _ => ⟨x, rfl⟩⟩, fun _ _ refused => by cases refused⟩

/-- A nested message is read when it is length delimited, splits into fields and every field is
one the visit takes. -/
theorem decides_nested {visit : σ → Field → Except Failure σ} {accepts : Field → Prop}
    (each : ∀ s, Decides (visit s) accepts) (init : σ) :
    Decides (fun f => f.nested init visit) fun f =>
      ∃ b, f.payload = .bytes b ∧ ∃ fs, Splits b fs ∧ ∀ g ∈ fs, accepts g := by
  constructor
  · intro f
    simp only [Field.nested, bind_eq_ok, foldFields_eq_ok_iff]
    constructor
    · rintro ⟨r, b, content, fs, split, folded⟩
      obtain ⟨num, payload⟩ := f
      cases payload <;> cases content
      exact ⟨b, rfl, fs, split, (foldlM_isOk (fun s => (each s).isOk) fs init).1 ⟨r, folded⟩⟩
    · rintro ⟨b, content, fs, split, accepted⟩
      obtain ⟨r, folded⟩ := (foldlM_isOk (fun s => (each s).isOk) fs init).2 accepted
      obtain ⟨num, payload⟩ := f
      cases content
      exact ⟨r, b, rfl, fs, split, folded⟩
  · intro f e read
    rcases bind_eq_error.1 read with refused | ⟨b, _, walked⟩
    · exact decides_bytes.malformed f e refused
    · rcases foldFields_eq_error visit walked with malformed | ⟨s, g, refused⟩
      · exact malformed
      · exact (each s).malformed g e refused

theorem decides_nested_table {c : Catalog} {depth : Nat} {name : String} {t : Table}
    (found : c.table? name = some t) {visit : σ → Field → Except Failure σ}
    (each : ∀ s, Decides (visit s) fun g => ∀ row ∈ t.fields, row.id.toNat = g.num →
      rowAccepts (tableAccepts c depth) row.kind row.type g = true) (init : σ) :
    Decides (fun f => f.nested init visit) fun f =>
      ∃ b, f.payload = .bytes b ∧ tableAccepts c (depth + 1) name b = true :=
  (decides_nested each init).congr fun _ =>
    exists_congr fun b => and_congr_right fun _ => (tableAccepts_succ found b).symm

end Decides

@[simp] theorem rowAccepts_name (message : String → Bytes → Bool) (k : Kind) (type : String) (f : Field) :
    rowAccepts message k.name type f = kindAccepts message k type f := by
  rw [rowAccepts, Kind.ofName?_name]

/-! ## The nested readers -/

theorem live_pair : Schema.live.table? "Pair" =
    some (.current "Pair" [.plain 1 "base" .text, .plain 2 "quote" .text]) := by
  decide

theorem decides_readPair (depth : Nat) :
    Decides readPair fun f => ∃ b, f.payload = .bytes b ∧ tableAccepts Schema.live (depth + 1) "Pair" b = true := by
  unfold readPair
  refine decides_nested_table live_pair (fun p => ?_) ({} : Pair)
  constructor
  · rintro ⟨num, payload⟩
    rcases num with _ | _ | _ | num <;>
      simp [Schema.Table.current, Schema.Field.plain, Schema.Field.mk', kindAccepts_scalar,
        decides_bytes.isOk, Kind.wireType]
  · rintro ⟨num, payload⟩ e refused
    rcases num with _ | _ | _ | num <;> simp at refused <;> exact decides_bytes.malformed _ e refused

theorem live_amount : Schema.live.table? "UInt128" =
    some (.current "UInt128" [.plain 1 "low" .uint64, .plain 2 "high" .uint64]) := by
  decide

theorem decides_readAmount (depth : Nat) :
    Decides readAmount fun f =>
      ∃ b, f.payload = .bytes b ∧ tableAccepts Schema.live (depth + 1) "UInt128" b = true := by
  unfold readAmount
  refine decides_nested_table live_amount (fun u => ?_) UInt128.zero
  constructor
  · rintro ⟨num, payload⟩
    rcases num with _ | _ | _ | num <;>
      simp [Schema.Table.current, Schema.Field.plain, Schema.Field.mk', kindAccepts_scalar,
        decides_varint.isOk, Kind.wireType]
  · rintro ⟨num, payload⟩ e refused
    rcases num with _ | _ | _ | num <;> simp at refused <;> exact decides_varint.malformed _ e refused

theorem live_level : Schema.live.table? "BidOrAsk" =
    some (.current "BidOrAsk" [.plain 1 "price" .float64, .plain 2 "quantity" .float64]) := by
  decide

theorem decides_readLevel (depth : Nat) :
    Decides readLevel fun f =>
      ∃ b, f.payload = .bytes b ∧ tableAccepts Schema.live (depth + 1) "BidOrAsk" b = true := by
  unfold readLevel
  refine decides_nested_table live_level (fun l => ?_) ({} : Level)
  constructor
  · rintro ⟨num, payload⟩
    rcases num with _ | _ | _ | num <;>
      simp [Schema.Table.current, Schema.Field.plain, Schema.Field.mk', kindAccepts_scalar,
        decides_float.isOk, Kind.wireType]
  · rintro ⟨num, payload⟩ e refused
    rcases num with _ | _ | _ | num <;> simp at refused <;> exact decides_float.malformed _ e refused

theorem live_depth : Schema.live.table? "DepthLevel" =
    some (.current "DepthLevel" [.plain 1 "percentage" .float64, .plain 2 "bid" .float64,
      .plain 3 "ask" .float64]) := by
  decide

theorem decides_readDepth (depth : Nat) :
    Decides readDepth fun f =>
      ∃ b, f.payload = .bytes b ∧ tableAccepts Schema.live (depth + 1) "DepthLevel" b = true := by
  unfold readDepth
  refine decides_nested_table live_depth (fun d => ?_) ({} : DepthLevel)
  constructor
  · rintro ⟨num, payload⟩
    rcases num with _ | _ | _ | _ | num <;>
      simp [Schema.Table.current, Schema.Field.plain, Schema.Field.mk', kindAccepts_scalar,
        decides_float.isOk, Kind.wireType]
  · rintro ⟨num, payload⟩ e refused
    rcases num with _ | _ | _ | _ | num <;> simp at refused <;>
      exact decides_float.malformed _ e refused

theorem live_header : Schema.live.table? "BaseEntry" =
    some (.legacy "BaseEntry" [.plain 1 "timestamp" .int64, .plain 2 "source" .text,
      .plain 3 "publisher" .text]) := by
  decide

theorem decides_readHeader (depth : Nat) :
    Decides readHeader fun f =>
      ∃ b, f.payload = .bytes b ∧ tableAccepts Schema.live (depth + 1) "BaseEntry" b = true := by
  unfold readHeader
  refine decides_nested_table live_header (fun h => ?_) ({} : Header)
  constructor
  · rintro ⟨num, payload⟩
    rcases num with _ | _ | _ | _ | num <;>
      simp [Schema.Table.legacy, Schema.Field.plain, Schema.Field.mk', kindAccepts_scalar,
        decides_varint.isOk, decides_bytes.isOk, Kind.wireType]
  · rintro ⟨num, payload⟩ e refused
    rcases num with _ | _ | _ | _ | num <;> simp at refused
    · exact decides_varint.malformed _ e refused
    · exact decides_bytes.malformed _ e refused
    · exact decides_bytes.malformed _ e refused

theorem live_book : Schema.live.table? "OrderbookData" =
    some (.current "OrderbookData" [.plain 1 "updateId" .uint64, .typed 2 "bids" .list "BidOrAsk",
      .typed 3 "asks" .list "BidOrAsk"]) := by
  decide

theorem decides_readBook (depth : Nat) :
    Decides readBook fun f =>
      ∃ b, f.payload = .bytes b ∧ tableAccepts Schema.live (depth + 2) "OrderbookData" b = true := by
  unfold readBook
  refine decides_nested_table live_book (fun o => ?_) ({} : Orderbook)
  have level := decides_readLevel depth
  constructor
  · rintro ⟨num, payload⟩
    rcases num with _ | _ | _ | _ | num <;>
      simp [Schema.Table.current, Schema.Field.plain, Schema.Field.typed, Schema.Field.mk',
        kindAccepts_scalar, kindAccepts_nested, decides_varint.isOk, level.isOk, Kind.wireType]
  · rintro ⟨num, payload⟩ e refused
    rcases num with _ | _ | _ | _ | num <;> simp at refused
    · exact decides_varint.malformed _ e refused
    · exact level.malformed _ e refused
    · exact level.malformed _ e refused

/-- The void arm of a union is an empty message; any fields in it are skipped but must be
well formed. -/
theorem decides_readVoid : Decides readVoid fun f => ∃ b, f.payload = .bytes b ∧ ∃ fs, Splits b fs := by
  unfold readVoid
  refine (decides_nested (fun _ => decides_pure ()) ()).congr fun f => ?_
  simp only [imp_true_iff, and_true]

/-! ## Slots and the rows they stand for -/

/-- The kind of the row a value of a shape is written under, with the type it names; an optional
value's row is its payload's. -/
def rowKind : Shape → Kind × String
  | .text => (.text, "")
  | .int => (.int64, "")
  | .word => (.uint64, "")
  | .float => (.float64, "")
  | .amount => (.uint128, "")
  | .ordinal e => (.enum, e.kind)
  | .pair => (.struct, "Pair")
  | .depth => (.struct, "DepthLevel")
  | .book => (.struct, "OrderbookData")
  | .header => (.struct, "BaseEntry")
  | .levels => (.list, "BidOrAsk")
  | .optional s => rowKind s

/-- The rows a slot numbered `id` of a shape stands for: number, kind and type. An optional
value stands for its void arm and, under the next number, the row of its payload. -/
def shapeRows (id : Nat) : Shape → List (Nat × Kind × String)
  | .optional s => [(id, .void, ""), (id + 1, rowKind s)]
  | s => [(id, rowKind s)]

theorem live_rows (k : EntityKind) :
    (Schema.live.table? k.name).map (fun t => t.fields.map fun row => (row.id.toNat, row.kind, row.type)) =
      some ((k.layout.flatMap fun slot => shapeRows slot.id slot.shape).map
        fun r => (r.1, r.2.1.name, r.2.2)) := by
  cases k <;> decide

section Slots

variable {α : Type} (depth : Nat)

theorem decides_decodeValue : ∀ s : Shape,
    Decides (fun g => decodeValue g s) fun g =>
      kindAccepts (tableAccepts Schema.live (depth + 2)) (rowKind s).1 (rowKind s).2 g = true
  | .text => decides_bytes.congr fun g => by simp [rowKind, kindAccepts_scalar, Kind.wireType]
  | .int => (decides_varint.map _).congr fun g => by simp [rowKind, kindAccepts_scalar, Kind.wireType]
  | .word => decides_varint.congr fun g => by simp [rowKind, kindAccepts_scalar, Kind.wireType]
  | .float => decides_float.congr fun g => by simp [rowKind, kindAccepts_scalar, Kind.wireType]
  | .ordinal _ => (decides_varint.map _).congr fun g => by
    simp [rowKind, kindAccepts_scalar, Kind.wireType]
  | .amount => (decides_readAmount (depth + 1)).congr fun g => by simp [rowKind, kindAccepts_nested]
  | .pair => (decides_readPair (depth + 1)).congr fun g => by simp [rowKind, kindAccepts_nested]
  | .depth => (decides_readDepth (depth + 1)).congr fun g => by simp [rowKind, kindAccepts_nested]
  | .header => (decides_readHeader (depth + 1)).congr fun g => by simp [rowKind, kindAccepts_nested]
  | .book => (decides_readBook depth).congr fun g => by simp [rowKind, kindAccepts_nested]
  | .levels => ((decides_readLevel (depth + 1)).map _).congr fun g => by
    simp [rowKind, kindAccepts_nested]
  | .optional s => ((decides_decodeValue s).map _).congr fun g => by simp [rowKind]

/-- A slot takes a field of one of its rows' numbers when that row takes it, and leaves every
other field alone. -/
theorem decides_absorb (slot : Slot α) (a : α) :
    Decides (fun g => absorb g a slot) fun g => ∀ r ∈ shapeRows slot.id slot.shape, r.1 = g.num →
      kindAccepts (tableAccepts Schema.live (depth + 2)) r.2.1 r.2.2 g = true := by
  obtain ⟨id, key, shape, get, set⟩ := slot
  cases shape
  case optional s =>
    constructor
    · intro g
      simp only [absorb, shapeRows, List.forall_mem_cons, List.not_mem_nil, false_implies,
        implies_true, and_true]
      by_cases void : g.num = id
      · subst void
        rw [if_pos rfl]
        simp [(decides_readVoid).isOk g, kindAccepts_void]
      · rw [if_neg void]
        by_cases payload : g.num = id + 1
        · rw [if_pos payload]
          simp [payload, (decides_decodeValue depth s).isOk g]
        · rw [if_neg payload]
          simp only [pure_eq_ok, exists_eq', true_iff]
          exact ⟨fun same => absurd same.symm void, fun same => absurd same.symm payload⟩
    · intro g e refused
      simp only [absorb] at refused
      split at refused
      · rcases bind_eq_error.1 refused with refused | ⟨_, _, refused⟩
        · exact decides_readVoid.malformed g e refused
        · cases refused
      · split at refused
        · rcases bind_eq_error.1 refused with refused | ⟨_, _, refused⟩
          · exact (decides_decodeValue depth s).malformed g e refused
          · cases refused
        · cases refused
  case levels =>
    refine (decides_guarded (decides_readLevel (depth + 1)) id
      (fun l => set (appendLevel (get a) l) a) a).congr fun g => ?_
    simp only [shapeRows, rowKind, List.forall_mem_singleton, kindAccepts_nested (.inr (.inr rfl))]
    exact ⟨fun h same => h same.symm, fun h same => h same.symm⟩
  all_goals
    refine (decides_guarded (decides_decodeValue depth _) id (fun v => set v a) a).congr fun g => ?_
    simp only [shapeRows, List.forall_mem_singleton]
    exact ⟨fun h same => h same.symm, fun h same => h same.symm⟩
theorem decides_layout (layout : List (Slot α)) (a : α) :
    Decides (fun g => layout.foldlM (fun a slot => absorb g a slot) a) fun g =>
      ∀ r ∈ layout.flatMap (fun slot => shapeRows slot.id slot.shape), r.1 = g.num →
        kindAccepts (tableAccepts Schema.live (depth + 2)) r.2.1 r.2.2 g = true := by
  constructor
  · intro g
    rw [foldlM_isOk (fun a slot => (decides_absorb depth slot a).isOk g) layout a, List.forall_mem_flatMap]
  · intro g e refused
    exact foldlM_malformed (fun a slot e => (decides_absorb depth slot a).malformed g e) layout a e refused

end Slots

/-! ## Entities -/

/-- The rows of an entity's live table take a field exactly when the rows its layout stands for
do. -/
theorem rows_accept_iff (depth : Nat) (k : EntityKind) :
    ∃ t, Schema.live.table? k.name = some t ∧ ∀ g : Field,
      (∀ row ∈ t.fields, row.id.toNat = g.num →
        rowAccepts (tableAccepts Schema.live (depth + 2)) row.kind row.type g = true) ↔
      ∀ r ∈ k.layout.flatMap (fun slot => shapeRows slot.id slot.shape), r.1 = g.num →
        kindAccepts (tableAccepts Schema.live (depth + 2)) r.2.1 r.2.2 g = true := by
  obtain ⟨t, found, rows⟩ := Option.map_eq_some_iff.1 (live_rows k)
  refine ⟨t, found, fun g => ?_⟩
  have mapped := congrArg (fun rows : List (Nat × String × String) => ∀ row ∈ rows, row.1 = g.num →
    rowAccepts (tableAccepts Schema.live (depth + 2)) row.2.1 row.2.2 g = true) rows
  simpa only [List.forall_mem_map, rowAccepts_name, eq_iff_iff] using mapped

theorem decode_isOk (k : EntityKind) (b : Bytes) :
    (∃ e, decode k b = .ok e) ↔ messageAccepts Schema.live k.name b = true := by
  obtain ⟨t, found, same⟩ := rows_accept_iff 16 k
  have tables : Schema.live.tables.length = 16 + 3 := by decide
  rw [messageAccepts, tables, tableAccepts_succ found, decode, decodeSlots]
  simp only [foldFields_eq_ok_iff]
  constructor
  · rintro ⟨e, fs, split, folded⟩
    refine ⟨fs, split, fun g member => (same g).2 ?_⟩
    exact ((foldlM_isOk (fun a g => (decides_layout 16 k.layout a).isOk g) fs k.empty).1 ⟨e, folded⟩) g member
  · rintro ⟨fs, split, accepted⟩
    obtain ⟨e, folded⟩ := (foldlM_isOk (fun a g => (decides_layout 16 k.layout a).isOk g) fs k.empty).2
      fun g member => (same g).1 (accepted g member)
    exact ⟨e, fs, split, folded⟩

theorem code?_of_decode_eq_error {k : EntityKind} {b : Bytes} {e : Failure} (refused : decode k b = .error e) :
    e.code? = some .malformedPayload := by
  rw [decode, decodeSlots] at refused
  rcases foldFields_eq_error _ refused with malformed | ⟨a, g, refused⟩
  · exact malformed
  · exact (decides_layout 16 k.layout a).malformed g e refused

/-- The protobuf reader of every entity accepts exactly its grammar: it fails exactly on the
messages that are no sequence of fields the wire reader takes, or that hold a field of a number
of the entity's live table with a wire type other than its kind's, or a nested message that its
own table does not accept; fields of other numbers are never looked at. Every failure is a
malformed payload. -/
theorem decode_fails_iff_rejected (k : EntityKind) (b : Bytes) :
    ((∃ e, decode k b = .error e) ↔ messageAccepts Schema.live k.name b = false) ∧
      ∀ e, decode k b = .error e → e.code? = some .malformedPayload := by
  refine ⟨?_, fun e refused => code?_of_decode_eq_error refused⟩
  rw [error_iff_not_ok, decode_isOk, Bool.not_eq_true]

end MarketData.Protobuf
