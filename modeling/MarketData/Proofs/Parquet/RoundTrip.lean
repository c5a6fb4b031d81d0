import MarketData.Codec
import MarketData.Proofs.Except
import MarketData.Proofs.Layout

/-!
# Parquet tables read back

An entity written as a parquet row reads back as its normal form, and so does every row of a
batch, in order (`parquet_round_trip`). A one-row table reads back as a single entity; any other
number of rows is refused as a single entity, naming the count.

Every value of every shape is carried: an ordinal as the bits of an INT32 cell, a signed integer
and each word of an amount as the bits of an INT64 cell, an optional value as an arm cell and the
cells of its payload (those of the zero value when absent), and a side as two repeated cells of
prices and quantities that zip back into its levels.

The proof reads a row cell by cell (`Reads`): the cells a value of a shape is written as read back
as its normal form whatever follows them, and a layout reads back slot after slot. The table
itself is read against its own columns, whose names are distinct, so each column is found where
it was written.
-/

namespace MarketData.Parquet

variable {α β : Type}

/-! ## Reading cells -/

/-- `R` takes the cells `row` from the front of a row and gives `x`, whatever follows them. -/
def Reads (R : CellReader α) (row : Row) (x : α) : Prop :=
  ∀ rest, R.run (row ++ rest) = .ok (x, rest)

theorem Reads.bind {R : CellReader α} {f : α → CellReader β} {row row' : Row} {x : α} {y : β}
    (first : Reads R row x) (second : Reads (f x) row' y) : Reads (R >>= f) (row ++ row') y := by
  intro rest
  rw [List.append_assoc, StateT.run_bind, first]
  exact second rest

theorem Reads.bind_last {R : CellReader α} {f : α → CellReader β} {row : Row} {x : α} {y : β}
    (first : Reads R row x) (second : Reads (f x) [] y) : Reads (R >>= f) row y := by
  simpa using first.bind second

theorem reads_pure (x : α) : Reads (pure x : CellReader α) [] x := fun _ => rfl

theorem reads_nextBytes (b : Bytes) : Reads nextBytes [.bytes b] b := fun _ => rfl

theorem reads_nextInt32 (v : UInt32) : Reads nextInt32 [.int32 v] v := fun _ => rfl

theorem reads_nextInt64 (v : UInt64) : Reads nextInt64 [.int64 v] v := fun _ => rfl

theorem reads_nextDouble (x : F64) : Reads nextDouble [.double x] x := fun _ => rfl

theorem reads_nextDoubles (xs : List F64) : Reads nextDoubles [.doubles xs] xs := fun _ => rfl

theorem reads_readSide (side : String) (l : Levels) : Reads (readSide side) (levelCells l) l.normal := by
  have zipped : (l.toList.map (·.price)).zipWith (fun p q => (⟨p, q⟩ : Level)) (l.toList.map (·.quantity)) =
      l.toList := by
    rw [List.zipWith_map, List.zipWith_self]
    exact List.map_id' l.toList
  refine (reads_nextDoubles _).bind ((reads_nextDoubles _).bind ?_)
  simp only [List.length_map, ne_eq, not_true_eq_false, if_false, zipped]
  exact reads_pure _

/-- The cells of a value read back as its normal form. An optional value reads the cells of its
payload whichever its arm, and keeps them only for the present arm. -/
theorem reads_readCells (key : String) :
    ∀ (s : Shape), s.optionalPlain = true → ∀ v : s.Value, Reads (readCells key s) (cells s v) (s.normal v)
  | .text, _, v => reads_nextBytes v
  | .int, _, v => (reads_nextInt64 v.toUInt64).bind (reads_pure _)
  | .word, _, v => reads_nextInt64 v
  | .float, _, v => reads_nextDouble v
  | .amount, _, v => (reads_nextInt64 v.low).bind ((reads_nextInt64 v.high).bind (reads_pure _))
  | .ordinal _, _, v => (reads_nextInt32 v.val).bind (reads_pure _)
  | .pair, _, v => (reads_nextBytes v.base).bind ((reads_nextBytes v.quote).bind (reads_pure _))
  | .depth, _, v =>
    (reads_nextDouble v.percentage).bind
      ((reads_nextDouble v.bid).bind ((reads_nextDouble v.ask).bind (reads_pure _)))
  | .book, _, v =>
    (reads_nextInt64 v.updateId).bind
      ((reads_readSide "bids" v.bids).bind ((reads_readSide "asks" v.asks).bind (reads_pure _)))
  | .header, _, v =>
    (reads_nextInt64 v.timestamp.toUInt64).bind
      ((reads_nextBytes v.source).bind ((reads_nextBytes v.publisher).bind (reads_pure _)))
  | .levels, _, v => reads_readSide key v
  | .optional s, plain, none => by
    refine (reads_nextInt32 0).bind
      ((reads_readCells key s (Shape.optionalPlain_of_isPlain plain) s.zero).bind_last ?_)
    exact reads_pure _
  | .optional s, plain, some v => by
    have payload := reads_readCells key s (Shape.optionalPlain_of_isPlain plain) v
    rw [Shape.normal_of_isPlain plain] at payload
    refine (reads_nextInt32 1).bind (payload.bind_last ?_)
    exact reads_pure _

/-! ## Rows -/

section Rows

variable {γ : Type}

/-- A row reads back slot after slot, each slot storing the normal form of what was written for
it; the reading starts from any value. -/
theorem reads_foldlM (layout : List (Slot γ)) (plain : ∀ s ∈ layout, s.shape.optionalPlain = true)
    (v init : γ) :
    Reads (layout.foldlM (fun (a : γ) (slot : Slot γ) => do
        pure (slot.set (← readCells slot.key slot.shape) a)) init)
      (rowOf layout v) (Layout.fill layout (fun s => s.shape.normal (s.get v)) init) := by
  induction layout generalizing init with
  | nil => exact reads_pure init
  | cons slot layout inductionHypothesis =>
    rw [List.foldlM_cons, rowOf, List.flatMap_cons, ← rowOf, Layout.fill_cons]
    have own := reads_readCells slot.key slot.shape (plain slot (.head _)) (slot.get v)
    have stored : Reads (readCells slot.key slot.shape >>= fun x => pure (slot.set x init))
        (cells slot.shape (slot.get v)) (slot.set (slot.shape.normal (slot.get v)) init) :=
      own.bind_last (reads_pure _)
    exact stored.bind (inductionHypothesis (fun s member => plain s (.tail _ member)) _)

theorem ofRow_rowOf (layout : List (Slot γ)) (plain : ∀ s ∈ layout, s.shape.optionalPlain = true)
    (v init : γ) :
    ofRow layout init (rowOf layout v) = .ok (Layout.fill layout (fun s => s.shape.normal (s.get v)) init) := by
  have read := reads_foldlM layout plain v init []
  rw [List.append_nil] at read
  unfold ofRow
  rw [StateT.run'_eq, read]
  rfl

end Rows

theorem decodeRow_encodeRow (e : Entity) : decodeRow e.kind (encodeRow e) = .ok (e.kind.normalize e.value) := by
  rw [decodeRow, encodeRow, ofRow_rowOf _ (EntityKind.optionalPlain_layout _), EntityKind.fill_normal]

/-! ## Tables -/

/-- The number of cells a value of a shape takes; it does not depend on the value. -/
def cellCount : Shape → Nat
  | .amount | .pair | .levels => 2
  | .depth | .header => 3
  | .book => 5
  | .optional s => cellCount s + 1
  | .text | .int | .word | .float | .ordinal _ => 1

theorem length_cells : ∀ (s : Shape) (v : s.Value), (cells s v).length = cellCount s
  | .optional s, none => by rw [cells, List.length_cons, length_cells s s.zero, cellCount]
  | .optional s, some v => by rw [cells, List.length_cons, length_cells s v, cellCount]
  | .text, _ | .int, _ | .word, _ | .float, _ | .amount, _ | .ordinal _, _ | .pair, _ | .depth, _
  | .header, _ | .levels, _ => rfl
  | .book, v => by simp [cells, levelCells, cellCount]

theorem length_encodeRow (e : Entity) : (encodeRow e).length = (columns e.kind).length := by
  have counted : (e.kind.layout.map fun slot => cellCount slot.shape).sum = (columns e.kind).length := by
    cases e.kind <;> rfl
  rw [encodeRow, rowOf, List.length_flatMap, ← counted]
  congr 1
  exact List.map_congr_left fun slot _ => length_cells _ _

theorem map_range_getD {γ : Type} (row : List γ) (d : γ) :
    (List.range row.length).map (fun i => row.getD i d) = row := by
  apply List.ext_getElem
  · simp
  · intro i _ within
    simp [List.getD_eq_getElem?_getD, List.getElem?_eq_getElem within]

theorem positions_columns (k : EntityKind) :
    (columns k).mapM (fun c => (columns k).findIdx? fun w =>
      w.name = c.name && w.physical = c.physical && w.repeated = c.repeated) =
      some (List.range (columns k).length) := by
  cases k <;> decide

theorem readTable_columns (k : EntityKind) {rows : List Row}
    (full : ∀ row ∈ rows, row.length = (columns k).length) :
    readTable (columns k) (columns k) rows = .ok rows := by
  unfold readTable
  rw [if_neg (Nat.lt_irrefl _)]
  split
  · rename_i empty
    rw [List.isEmpty_iff.1 empty]
  · rw [positions_columns]
    dsimp only
    congr 1
    conv => rhs; rw [← List.map_id rows]
    exact List.map_congr_left fun row member => by rw [← full row member, map_range_getD]; rfl

/-! ## The codec -/

theorem rowsOf_batch (k : EntityKind) (xs : List k.Carrier) :
    Codec.rowsOf k (.rows (columns k) (xs.map fun v => encodeRow ⟨k, v⟩)) =
      .ok (xs.map fun v => encodeRow ⟨k, v⟩) :=
  readTable_columns k fun row member => by
    obtain ⟨v, -, rfl⟩ := List.mem_map.1 member
    exact length_encodeRow ⟨k, v⟩

theorem decode_list_batch (c : Compression) (k : EntityKind) (xs : List k.Carrier) :
    Codec.decode (.parquet c) (.list k) (.rows (columns k) (xs.map fun v => encodeRow ⟨k, v⟩)) =
      .ok (.many k (xs.map k.normalize)) := by
  have each : ∀ p ∈ xs.zipIdx,
      ((fun q => Failure.wrap s!"row {q.2}" (decodeRow k q.1)) ∘ Prod.map (fun v => encodeRow ⟨k, v⟩) id) p =
        .ok (k.normalize p.1) := by
    intro ⟨v, i⟩ _
    show Failure.wrap _ (decodeRow k (encodeRow ⟨k, v⟩)) = _
    rw [decodeRow_encodeRow ⟨k, v⟩]
    rfl
  have firsts : xs.zipIdx.map Prod.fst = xs := by
    rw [← List.unzip_fst, List.unzip_zipIdx_eq_prod]
  dsimp only [Codec.decode]
  rw [rowsOf_batch, ok_bind, List.zipIdx_map, List.mapM_map, mapM_eq_ok_map each, ok_bind]
  conv => rhs; rw [← firsts, List.map_map]
  rfl

theorem decode_entity_batch (c : Compression) (k : EntityKind) (xs : List k.Carrier) :
    Codec.decode (.parquet c) (.entity k) (.rows (columns k) (xs.map fun v => encodeRow ⟨k, v⟩)) =
      match xs with
      | [x] => .ok (.one ⟨k, k.normalize x⟩)
      | _ => .error (.coded .malformedPayload s!"parquet: want 1 row, file has {xs.length}") := by
  dsimp only [Codec.decode]
  rw [rowsOf_batch, ok_bind]
  match xs with
  | [] => rfl
  | [x] =>
    show (do pure (Decoded.one ⟨k, ← decodeRow k (encodeRow ⟨k, x⟩)⟩)) = _
    rw [decodeRow_encodeRow ⟨k, x⟩]
    rfl
  | _ :: _ :: _ =>
    rw [List.length_map]
    rfl

/-- Parquet keeps every entity. A single entity reads back, as its kind, in normal form; a batch of
any length reads back, as a list, as its entities in normal form and in order; and read as a
single entity, a batch gives its entity when it has exactly one and is otherwise refused, naming
its row count. -/
theorem parquet_round_trip (compression compression' : Compression) :
    (∀ e : Entity, ∃ written, Codec.encode (.parquet compression) (.entity e) = .ok written ∧
        Codec.decode (.parquet compression') (.entity e.kind) written =
          .ok (.one ⟨e.kind, e.kind.normalize e.value⟩)) ∧
    (∀ (k : EntityKind) (xs : List k.Carrier), ∃ written,
        Codec.encode (.parquet compression) (.batch k xs) = .ok written ∧
        Codec.decode (.parquet compression') (.list k) written = .ok (.many k (xs.map k.normalize)) ∧
        Codec.decode (.parquet compression') (.entity k) written =
          match xs with
          | [x] => .ok (.one ⟨k, k.normalize x⟩)
          | _ => .error (.coded .malformedPayload s!"parquet: want 1 row, file has {xs.length}")) :=
  ⟨fun e => ⟨_, rfl, decode_entity_batch compression' e.kind [e.value]⟩,
    fun k xs => ⟨_, rfl, decode_list_batch compression' k xs, decode_entity_batch compression' k xs⟩⟩

end MarketData.Parquet
