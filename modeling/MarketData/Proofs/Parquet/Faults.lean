import MarketData.Proofs.Parquet.Columns

/-!
# Which rows a table reads

A row of a kind's table is a record when each of its cells has the physical type and the
repetition of its column (`Record`); the row of every entity is one. Reading a record can fail in
two ways only, both where the flat form leaves room: an arm cell holding neither 0 nor 1
(`malformedUnion`, a negative arm reported as such) and a side whose price and quantity columns
differ in length (`malformedPayload`, naming the side). A record reads back exactly when it has
neither fault, and otherwise fails with its first fault in column order: the chain arm of a
price is judged before its expiration arm, the bids of a book before its asks.

A record that reads back is written back as itself, except that the payload cells of an absent
arm come back as those of the zero value (`cleanRow`); an empty repeated column has only one form
here. A batch fails at its first faulty row, with that row's index in front of the fault.

The proof follows the reader. What reading some cells does is judged by `Judges`: with a fault
the reader fails with it, whatever follows the cells, and without one it reads a value and leaves
what follows. Each shape's cells are judged by themselves, and a layout's row slot after slot,
each slot taking as many cells as its shape has (`cellCount`).
-/

namespace MarketData.Parquet

variable {α β γ : Type}

/-! ## Records -/

/-- The physical type of a cell and whether it is a repeated one. -/
def Cell.sort : Cell → Physical × Bool
  | .bytes _ => (.byteArray, false)
  | .int32 _ => (.int32, false)
  | .int64 _ => (.int64, false)
  | .double _ => (.double, false)
  | .doubles _ => (.double, true)

/-- The physical type of a column and whether it is a repeated one. -/
def Column.sort (c : Column) : Physical × Bool := (c.physical, c.repeated)

/-- A record of a kind: a row whose cells have the types of its table's columns. -/
def Record (k : EntityKind) (row : Row) : Prop := row.map Cell.sort = (columns k).map Column.sort

instance (k : EntityKind) (row : Row) : Decidable (Record k row) :=
  inferInstanceAs (Decidable (_ = _))

@[simp] theorem Cell.sort_eq_bytes {c : Cell} : c.sort = (.byteArray, false) ↔ ∃ b, c = .bytes b := by
  cases c <;> simp [Cell.sort]

@[simp] theorem Cell.sort_eq_int32 {c : Cell} : c.sort = (.int32, false) ↔ ∃ v, c = .int32 v := by
  cases c <;> simp [Cell.sort]

@[simp] theorem Cell.sort_eq_int64 {c : Cell} : c.sort = (.int64, false) ↔ ∃ v, c = .int64 v := by
  cases c <;> simp [Cell.sort]

@[simp] theorem Cell.sort_eq_double {c : Cell} : c.sort = (.double, false) ↔ ∃ x, c = .double x := by
  cases c <;> simp [Cell.sort]

@[simp] theorem Cell.sort_eq_doubles {c : Cell} : c.sort = (.double, true) ↔ ∃ xs, c = .doubles xs := by
  cases c <;> simp [Cell.sort]

/-- The types of the cells of a value of a shape; they do not depend on the value. -/
def cellSorts : Shape → List (Physical × Bool)
  | .text => [(.byteArray, false)]
  | .int | .word => [(.int64, false)]
  | .float => [(.double, false)]
  | .amount => [(.int64, false), (.int64, false)]
  | .ordinal _ => [(.int32, false)]
  | .pair => [(.byteArray, false), (.byteArray, false)]
  | .depth => [(.double, false), (.double, false), (.double, false)]
  | .book => [(.int64, false), (.double, true), (.double, true), (.double, true), (.double, true)]
  | .header => [(.int64, false), (.byteArray, false), (.byteArray, false)]
  | .levels => [(.double, true), (.double, true)]
  | .optional s => (.int32, false) :: cellSorts s

theorem length_cellSorts : ∀ s : Shape, (cellSorts s).length = cellCount s
  | .optional s => by rw [cellSorts, List.length_cons, length_cellSorts s, cellCount]
  | .text | .int | .word | .float | .amount | .ordinal _ | .pair | .depth | .book | .header | .levels => rfl

theorem map_sort_cells : ∀ (s : Shape) (v : s.Value), (cells s v).map Cell.sort = cellSorts s
  | .optional s, none => by rw [cells, List.map_cons, map_sort_cells s s.zero]; rfl
  | .optional s, some v => by rw [cells, List.map_cons, map_sort_cells s v]; rfl
  | .text, _ | .int, _ | .word, _ | .float, _ | .amount, _ | .ordinal _, _ | .pair, _ | .depth, _
  | .header, _ | .levels, _ | .book, _ => rfl

theorem columns_sort (k : EntityKind) :
    (columns k).map Column.sort = k.layout.flatMap fun slot => cellSorts slot.shape := by
  cases k <;> rfl

theorem record_encodeRow (e : Entity) : Record e.kind (encodeRow e) := by
  rw [Record, columns_sort, encodeRow, rowOf, List.map_flatMap]
  exact List.flatMap_congr fun slot _ => map_sort_cells slot.shape (slot.get e.value)

theorem exists_cells_of_sorts {s : Shape} (plain : s.isPlain = true) {cs : Row}
    (typed : cs.map Cell.sort = cellSorts s) : ∃ v, cs = cells s v := by
  cases s
  case text =>
    simp [cellSorts, List.map_eq_cons_iff] at typed
    obtain ⟨b, rfl⟩ := typed
    exact ⟨b, rfl⟩
  case int =>
    simp [cellSorts, List.map_eq_cons_iff] at typed
    obtain ⟨w, rfl⟩ := typed
    exact ⟨w.toInt64, by simp [cells]⟩
  case word =>
    simp [cellSorts, List.map_eq_cons_iff] at typed
    obtain ⟨w, rfl⟩ := typed
    exact ⟨w, rfl⟩
  case float =>
    simp [cellSorts, List.map_eq_cons_iff] at typed
    obtain ⟨x, rfl⟩ := typed
    exact ⟨x, rfl⟩
  case amount =>
    simp [cellSorts, List.map_eq_cons_iff] at typed
    obtain ⟨low, high, rfl⟩ := typed
    exact ⟨⟨low, high⟩, rfl⟩
  case ordinal e =>
    simp [cellSorts, List.map_eq_cons_iff] at typed
    obtain ⟨v, rfl⟩ := typed
    exact ⟨⟨v⟩, rfl⟩
  case pair =>
    simp [cellSorts, List.map_eq_cons_iff] at typed
    obtain ⟨base, quote, rfl⟩ := typed
    exact ⟨⟨base, quote⟩, rfl⟩
  case depth =>
    simp [cellSorts, List.map_eq_cons_iff] at typed
    obtain ⟨percentage, bid, ask, rfl⟩ := typed
    exact ⟨⟨percentage, bid, ask⟩, rfl⟩
  case header =>
    simp [cellSorts, List.map_eq_cons_iff] at typed
    obtain ⟨timestamp, source, publisher, rfl⟩ := typed
    exact ⟨⟨timestamp.toInt64, source, publisher⟩, by simp [cells]⟩
  case book | levels | optional => cases plain

/-! ## Faults -/

/-- The fault of an arm cell: a tag other than 0 and 1, a negative one reported as such. -/
def armFault (raw : UInt32) : Option Failure :=
  if raw.toNat ≤ 1 then none
  else if raw.toNat ≥ Nat.pow 2 31 then
    some (.coded .malformedUnion s!"parquet: arm {Int.ofNat raw.toNat - Int.pow 2 32}")
  else some (.coded .malformedUnion s!"union tag {raw.toNat} is neither arm")

/-- The fault of a side: price and quantity columns of different lengths. -/
def sideFault (side : String) (prices quantities : List F64) : Option Failure :=
  if prices.length = quantities.length then none
  else some (.coded .malformedPayload
    s!"parquet: {side} has {prices.length} prices and {quantities.length} quantities")

/-- The first fault of the cells of a value of a shape: the side of a value of levels, the bids
and then the asks of a book, the arm of an optional value. -/
def cellsFault (key : String) : (s : Shape) → Row → Option Failure
  | .levels, [.doubles prices, .doubles quantities] => sideFault key prices quantities
  | .book, [_, .doubles bidPrices, .doubles bidQuantities, .doubles askPrices, .doubles askQuantities] =>
    (sideFault "bids" bidPrices bidQuantities).or (sideFault "asks" askPrices askQuantities)
  | .optional _, .int32 raw :: _ => armFault raw
  | _, _ => none

/-- The cells a value's cells are written back as: the payload of an absent arm becomes that of
the zero value, and every other cell stays. -/
def cleanCells : (s : Shape) → Row → Row
  | .optional s, .int32 raw :: payload => .int32 raw :: if raw = 0 then cells s s.zero else payload
  | _, cs => cs

/-- The first fault of a row under a layout, slot after slot, each slot taking as many cells as
its shape has. -/
def rowFault : List (Slot α) → Row → Option Failure
  | [], _ => none
  | slot :: layout, row =>
    (cellsFault slot.key slot.shape (row.take (cellCount slot.shape))).or
      (rowFault layout (row.drop (cellCount slot.shape)))

/-- A row as its values are written back, slot after slot. -/
def cleanRow : List (Slot α) → Row → Row
  | [], _ => []
  | slot :: layout, row =>
    cleanCells slot.shape (row.take (cellCount slot.shape)) ++ cleanRow layout (row.drop (cellCount slot.shape))

/-- The first faulty row of a batch, with its index in front of its fault. -/
def batchFault (k : EntityKind) (rows : List Row) : Option Failure :=
  rows.zipIdx.findSome? fun p => (rowFault k.layout p.1).map (Failure.within s!"row {p.2}")

theorem cellsFault_of_isPlain (key : String) {s : Shape} (plain : s.isPlain = true) (cs : Row) :
    cellsFault key s cs = none := by
  cases s <;> first | rfl | cases plain

theorem cleanCells_of_isPlain {s : Shape} (plain : s.isPlain = true) (cs : Row) : cleanCells s cs = cs := by
  cases s <;> first | rfl | cases plain

theorem armFault_eq_none {raw : UInt32} : armFault raw = none ↔ raw.toNat ≤ 1 := by
  unfold armFault
  split
  · exact iff_of_true rfl ‹_›
  · split <;> simp_all

theorem armOf_of_armFault {raw : UInt32} {f : Failure} (faulty : armFault raw = some f) :
    armOf raw = .error f := by
  unfold armFault at faulty
  unfold armOf
  split at faulty
  · cases faulty
  · rename_i notArm
    split at faulty <;> cases faulty
    · rw [if_pos ‹_›]
      rfl
    · rw [if_neg ‹_›, Arm.ofWire, if_neg (by omega), if_neg (by omega)]

theorem arm_cases {raw : UInt32} (clean : armFault raw = none) : raw = 0 ∨ raw = 1 := by
  have small := armFault_eq_none.1 clean
  rcases Nat.le_one_iff_eq_zero_or_eq_one.1 small with zero | one
  · exact Or.inl (UInt32.toNat_inj.1 zero)
  · exact Or.inr (UInt32.toNat_inj.1 one)

/-! ## Judging a reader -/

/-- `R` fails with `f` on every row that starts with the cells `row`. -/
def Fails (R : CellReader β) (row : Row) (f : Failure) : Prop :=
  ∀ rest, R.run (row ++ rest) = .error f

/-- What reading the cells `row` does: with a fault the reader fails with it, and without one it
reads a value that is `good`, whatever follows the cells. -/
structure Judges (R : CellReader β) (row : Row) (fault : Option Failure) (good : β → Prop) : Prop where
  fails : ∀ f, fault = some f → Fails R row f
  reads : fault = none → ∃ x, Reads R row x ∧ good x

theorem Fails.bind {R : CellReader β} {g : β → CellReader γ} {row : Row} {f : Failure}
    (first : Fails R row f) (row' : Row) : Fails (R >>= g) (row ++ row') f := by
  intro rest
  rw [List.append_assoc, StateT.run_bind, first]
  rfl

theorem Reads.bind_fails {R : CellReader β} {g : β → CellReader γ} {row row' : Row} {x : β} {f : Failure}
    (first : Reads R row x) (second : Fails (g x) row' f) : Fails (R >>= g) (row ++ row') f := by
  intro rest
  rw [List.append_assoc, StateT.run_bind, first]
  exact second rest

theorem fails_throw (f : Failure) : Fails (throw f : CellReader β) [] f := fun _ => rfl

namespace Judges

theorem of_reads {R : CellReader β} {row : Row} {x : β} {good : β → Prop} (read : Reads R row x)
    (holds : good x) : Judges R row none good where
  fails _ faulty := by cases faulty
  reads _ := ⟨x, read, holds⟩

theorem of_fails {R : CellReader β} {row : Row} {f : Failure} {good : β → Prop} (failing : Fails R row f) :
    Judges R row (some f) good where
  fails _ same := by
    cases same
    exact failing
  reads clean := by cases clean

theorem of_reads_eq {R : CellReader β} {row : Row} {x : β} (read : Reads R row x) :
    Judges R row none (· = x) :=
  of_reads read rfl

theorem pure_of (x : β) {good : β → Prop} (holds : good x) : Judges (pure x : CellReader β) [] none good :=
  of_reads (reads_pure x) holds

theorem mono {R : CellReader β} {row : Row} {fault : Option Failure} {good good' : β → Prop}
    (judged : Judges R row fault good) (better : ∀ x, Reads R row x → good x → good' x) :
    Judges R row fault good' where
  fails := judged.fails
  reads clean := by
    obtain ⟨x, read, holds⟩ := judged.reads clean
    exact ⟨x, read, better x read holds⟩

/-- Two readings in a row: the first fault of either, and the second judged from every good
value of the first. -/
theorem bind {R : CellReader β} {g : β → CellReader γ} {row row' : Row} {fault fault' : Option Failure}
    {good : β → Prop} {good' : γ → Prop} (first : Judges R row fault good)
    (second : ∀ x, good x → Judges (g x) row' fault' good') :
    Judges (R >>= g) (row ++ row') (fault.or fault') good' := by
  cases fault with
  | some f =>
    rw [Option.some_or]
    exact of_fails ((first.fails f rfl).bind row')
  | none =>
    rw [Option.none_or]
    obtain ⟨x, read, holds⟩ := first.reads rfl
    have next := second x holds
    exact ⟨fun f faulty => read.bind_fails (next.fails f faulty), fun clean => by
      obtain ⟨y, read', holds'⟩ := next.reads clean
      exact ⟨y, read.bind read', holds'⟩⟩

end Judges

/-! ## Judging the cells of a value -/

theorem levelCells_zipWith {prices quantities : List F64} (same : prices.length = quantities.length) :
    levelCells (Levels.ofList (prices.zipWith (fun p q => ⟨p, q⟩) quantities)) =
      [.doubles prices, .doubles quantities] := by
  have firsts : prices.zipWith (fun p _ => p) quantities = prices := by
    simpa [List.zip_eq_zipWith, List.map_zipWith] using List.map_fst_zip (Nat.le_of_eq same)
  have seconds : prices.zipWith (fun _ q => q) quantities = quantities := by
    simpa [List.zip_eq_zipWith, List.map_zipWith] using List.map_snd_zip (Nat.le_of_eq same.symm)
  simp [levelCells, Levels.toList_ofList, List.map_zipWith, firsts, seconds]

theorem judges_readSide (side : String) (prices quantities : List F64) :
    Judges (readSide side) [.doubles prices, .doubles quantities] (sideFault side prices quantities)
      (fun l => levelCells l = [.doubles prices, .doubles quantities]) := by
  by_cases same : prices.length = quantities.length
  · rw [sideFault, if_pos same]
    refine Judges.of_reads ((reads_nextDoubles prices).bind ((reads_nextDoubles quantities).bind ?_))
      (levelCells_zipWith same)
    simp only [ne_eq, same, not_true_eq_false, if_false]
    exact reads_pure _
  · rw [sideFault, if_neg same]
    refine Judges.of_fails ((reads_nextDoubles prices).bind_fails
      ((reads_nextDoubles quantities).bind_fails ?_))
    simp only [ne_eq, same, not_false_eq_true, if_true]
    exact (fails_throw _).bind []

theorem judges_book (key : String) (updateId : UInt64) (bidPrices bidQuantities askPrices askQuantities : List F64) :
    Judges (readCells key .book)
      [.int64 updateId, .doubles bidPrices, .doubles bidQuantities, .doubles askPrices, .doubles askQuantities]
      ((sideFault "bids" bidPrices bidQuantities).or (sideFault "asks" askPrices askQuantities))
      (fun v => cells .book v =
        [.int64 updateId, .doubles bidPrices, .doubles bidQuantities, .doubles askPrices, .doubles askQuantities]) := by
  suffices judged : Judges (readCells key .book)
      ([.int64 updateId] ++ ([.doubles bidPrices, .doubles bidQuantities] ++
        ([.doubles askPrices, .doubles askQuantities] ++ [])))
      (none.or ((sideFault "bids" bidPrices bidQuantities).or ((sideFault "asks" askPrices askQuantities).or none)))
      (fun v => cells .book v =
        [.int64 updateId, .doubles bidPrices, .doubles bidQuantities, .doubles askPrices, .doubles askQuantities]) by
    simpa only [Option.none_or, Option.or_none, List.append_nil, List.cons_append, List.nil_append] using judged
  refine (Judges.of_reads_eq (reads_nextInt64 updateId)).bind fun id sameId =>
    (judges_readSide "bids" bidPrices bidQuantities).bind fun bids bidCells =>
      (judges_readSide "asks" askPrices askQuantities).bind fun asks askCells => Judges.pure_of _ ?_
  subst sameId
  simp only [cells, bidCells, askCells, List.cons_append, List.nil_append]

theorem judges_optional (key : String) {s : Shape} (plain : s.isPlain = true) (raw : UInt32) (v : s.Value) :
    Judges (readCells key (.optional s)) (.int32 raw :: cells s v) (armFault raw)
      (fun x => cells (.optional s) x = .int32 raw :: if raw = 0 then cells s s.zero else cells s v) := by
  have payload := reads_readCells key s (Shape.optionalPlain_of_isPlain plain) v
  rw [Shape.normal_of_isPlain plain] at payload
  suffices judged : Judges (readCells key (.optional s)) ([.int32 raw] ++ (cells s v ++ []))
      (none.or (none.or (armFault raw)))
      (fun x => cells (.optional s) x = .int32 raw :: if raw = 0 then cells s s.zero else cells s v) by
    simpa only [Option.none_or, List.append_nil, List.singleton_append] using judged
  refine (Judges.of_reads_eq (reads_nextInt32 raw)).bind fun r sameRaw =>
    (Judges.of_reads_eq payload).bind fun w sameW => ?_
  subst sameRaw sameW
  cases fault : armFault r with
  | some f =>
    rw [armOf_of_armFault fault]
    exact Judges.of_fails (fails_throw f)
  | none =>
    rcases arm_cases fault with rfl | rfl
    · exact Judges.pure_of none rfl
    · exact Judges.pure_of (some w) rfl

/-- The cells of a value, typed as its shape's cells are, are judged by their fault; when they
have none, the value read is written back as the cleaned cells. -/
theorem judges_readCells (key : String) {s : Shape} (plain : s.optionalPlain = true) {cs : Row}
    (typed : cs.map Cell.sort = cellSorts s) :
    Judges (readCells key s) cs (cellsFault key s cs) (fun v => cells s v = cleanCells s cs) := by
  cases s
  case levels =>
    simp [cellSorts, List.map_eq_cons_iff] at typed
    obtain ⟨prices, quantities, rfl⟩ := typed
    exact judges_readSide key prices quantities
  case book =>
    simp [cellSorts, List.map_eq_cons_iff] at typed
    obtain ⟨updateId, bidPrices, bidQuantities, askPrices, askQuantities, rfl⟩ := typed
    exact judges_book key updateId bidPrices bidQuantities askPrices askQuantities
  case optional s =>
    simp only [cellSorts, List.map_eq_cons_iff, Cell.sort_eq_int32] at typed
    obtain ⟨_, payload, rfl, ⟨raw, rfl⟩, typedPayload⟩ := typed
    obtain ⟨v, rfl⟩ := exists_cells_of_sorts plain typedPayload
    exact judges_optional key plain raw v
  all_goals
    obtain ⟨v, rfl⟩ := exists_cells_of_sorts rfl typed
    rw [cellsFault_of_isPlain key rfl, cleanCells_of_isPlain rfl]
    exact Judges.of_reads (reads_readCells key _ rfl v) (by rw [Shape.normal_of_isPlain rfl])

/-! ## Judging a row -/

/-- A row typed as a lawful layout's cells is judged slot after slot: it fails with its first
fault, and without one it reads a value written back as the cleaned row. -/
theorem judges_foldlM {layout : List (Slot α)} (lawful : Layout.Lawful layout)
    (plain : ∀ slot ∈ layout, slot.shape.optionalPlain = true) (init : α) {row : Row}
    (typed : row.map Cell.sort = layout.flatMap fun slot => cellSorts slot.shape) :
    Judges (layout.foldlM storeSlot init) row (rowFault layout row)
      (fun x => rowOf layout x = cleanRow layout row) := by
  induction layout generalizing init row with
  | nil =>
    rw [List.flatMap_nil, List.map_eq_nil_iff] at typed
    subst typed
    exact Judges.pure_of init rfl
  | cons slot layout inductionHypothesis =>
    -- the slot's own cells come first, as many as its shape has; the rest are the later slots'
    have counted := length_cellSorts slot.shape
    rw [List.flatMap_cons] at typed
    have typedSlot : (row.take (cellCount slot.shape)).map Cell.sort = cellSorts slot.shape := by
      rw [List.map_take, typed, List.take_left' counted]
    have typedRest : (row.drop (cellCount slot.shape)).map Cell.sort =
        layout.flatMap fun slot => cellSorts slot.shape := by
      rw [List.map_drop, typed, List.drop_left' counted]
    obtain ⟨apart, independent⟩ := List.pairwise_cons.1 lawful.independent
    have lawfulRest : Layout.Lawful layout := ⟨fun t member => lawful.slots t (.tail _ member), independent⟩
    have stored : Judges (storeSlot init slot) (row.take (cellCount slot.shape) ++ [])
        ((cellsFault slot.key slot.shape (row.take (cellCount slot.shape))).or none)
        (fun a => ∃ v, a = slot.set v init ∧
          cells slot.shape v = cleanCells slot.shape (row.take (cellCount slot.shape))) :=
      (judges_readCells slot.key (plain slot (.head _)) typedSlot).bind fun v clean =>
        Judges.pure_of _ ⟨v, rfl, clean⟩
    suffices judged : Judges (storeSlot init slot >>= fun a => layout.foldlM storeSlot a)
        (row.take (cellCount slot.shape) ++ [] ++ row.drop (cellCount slot.shape))
        (((cellsFault slot.key slot.shape (row.take (cellCount slot.shape))).or none).or
          (rowFault layout (row.drop (cellCount slot.shape))))
        (fun x => rowOf (slot :: layout) x = cleanRow (slot :: layout) row) by
      rw [List.append_nil, List.take_append_drop, Option.or_none] at judged
      exact judged
    refine stored.bind fun a holds => ?_
    obtain ⟨v, rfl, clean⟩ := holds
    refine (inductionHypothesis lawfulRest (fun t member => plain t (.tail _ member)) (slot.set v init)
      typedRest).mono fun x read written => ?_
    -- the slots after this one leave what it read alone
    have kept : slot.get x = v := by
      rw [get_foldlM_of_independent apart (read [])]
      exact (lawful.slots slot (.head _)).get_set v init
    rw [rowOf, List.flatMap_cons, ← rowOf, kept, clean, written, cleanRow]

theorem Fails.run'_eq {R : CellReader β} {row : Row} {f : Failure} (failing : Fails R row f) :
    R.run' row = .error f := by
  have run := failing []
  rw [List.append_nil] at run
  rw [StateT.run'_eq, run]
  rfl

theorem Reads.run'_eq {R : CellReader β} {row : Row} {x : β} (read : Reads R row x) : R.run' row = .ok x := by
  have run := read []
  rw [List.append_nil] at run
  rw [StateT.run'_eq, run]
  rfl

theorem judges_decodeRow (k : EntityKind) {row : Row} (record : Record k row) :
    Judges (k.layout.foldlM storeSlot k.empty) row (rowFault k.layout row)
      (fun x => encodeRow ⟨k, x⟩ = cleanRow k.layout row) :=
  judges_foldlM k.layout_lawful k.optionalPlain_layout k.empty (by rw [record, columns_sort])

theorem decodeRow_eq_error_iff (k : EntityKind) {row : Row} (record : Record k row) (f : Failure) :
    decodeRow k row = .error f ↔ rowFault k.layout row = some f := by
  have judged := judges_decodeRow k record
  cases faulty : rowFault k.layout row with
  | some f' =>
    rw [decodeRow, ofRow_eq_run', (judged.fails f' faulty).run'_eq]
    simp
  | none =>
    obtain ⟨x, read, -⟩ := judged.reads faulty
    rw [decodeRow, ofRow_eq_run', read.run'_eq]
    simp

theorem encodeRow_decodeRow (k : EntityKind) {row : Row} (record : Record k row) {x : k.Carrier}
    (read : decodeRow k row = .ok x) : encodeRow ⟨k, x⟩ = cleanRow k.layout row := by
  have judged := judges_decodeRow k record
  cases faulty : rowFault k.layout row with
  | some f =>
    rw [decodeRow, ofRow_eq_run', (judged.fails f faulty).run'_eq] at read
    cases read
  | none =>
    obtain ⟨y, readY, written⟩ := judged.reads faulty
    rw [decodeRow, ofRow_eq_run', readY.run'_eq] at read
    cases read
    exact written

/-! ## Batches -/

/-- A list mapped through a function that fails or not by a fault of each element fails with the
first element's fault. -/
theorem mapM_eq_error_iff_findSome {ε : Type} {g : α → Except ε β} {fault : α → Option ε} :
    ∀ {xs : List α}, (∀ x ∈ xs, ∀ e, g x = .error e ↔ fault x = some e) →
      ∀ e, xs.mapM g = .error e ↔ xs.findSome? fault = some e
  | [], _, e => by simp
  | x :: xs, judged, e => by
    rw [List.mapM_cons, List.findSome?_cons]
    cases result : g x with
    | error e' =>
      rw [(judged x (.head _) e').1 result]
      simp
    | ok y =>
      have clean : fault x = none := by
        cases faultX : fault x with
        | none => rfl
        | some e' =>
          have refused := (judged x (.head _) e').2 faultX
          rw [result] at refused
          cases refused
      simp only [clean, ok_bind, bind_eq_error, pure_eq_error, and_false, exists_false, or_false]
      exact mapM_eq_error_iff_findSome (fun z member => judged z (.tail _ member)) e

theorem map_eq_of_forall₂ {R : α → β → Prop} {f : β → γ} {g : α → γ} {xs : List α} {ys : List β}
    (related : List.Forall₂ R xs ys) (each : ∀ x ∈ xs, ∀ y, R x y → f y = g x) : ys.map f = xs.map g := by
  induction related with
  | nil => rfl
  | cons head _ inductionHypothesis =>
    rw [List.map_cons, List.map_cons, each _ (.head _) _ head,
      inductionHypothesis fun x member => each x (.tail _ member)]

/-- A batch of records fails with its first faulty row's fault, behind that row's index; without
one it reads back as entities written back as the cleaned rows. -/
theorem decode_batch_judged (c : Compression) (k : EntityKind) {rows : List Row}
    (records : ∀ row ∈ rows, Record k row) :
    (∀ e, Codec.decode (.parquet c) (.list k) (.rows (columns k) rows) = .error e ↔ batchFault k rows = some e) ∧
      ∀ es, Codec.decode (.parquet c) (.list k) (.rows (columns k) rows) = .ok (.many k es) →
        es.map (fun x => encodeRow ⟨k, x⟩) = rows.map (cleanRow k.layout) := by
  have full : ∀ row ∈ rows, row.length = (columns k).length := fun row member => by
    simpa using congrArg List.length (records row member)
  have each : ∀ p ∈ rows.zipIdx, ∀ e, Failure.wrap s!"row {p.2}" (decodeRow k p.1) = .error e ↔
      (rowFault k.layout p.1).map (Failure.within s!"row {p.2}") = some e := by
    intro p member e
    have record := records p.1 (List.fst_mem_of_mem_zipIdx member)
    cases faulty : rowFault k.layout p.1 with
    | some f =>
      rw [(decodeRow_eq_error_iff k record f).2 faulty]
      simp [Failure.wrap]
    | none =>
      cases read : decodeRow k p.1 with
      | error f =>
        rw [decodeRow_eq_error_iff k record f, faulty] at read
        cases read
      | ok x => simp
  dsimp only [Codec.decode]
  rw [Codec.rowsOf, readTable_columns k full, ok_bind]
  constructor
  · intro e
    rw [bind_eq_error]
    simp only [pure_eq_error, and_false, exists_false, or_false]
    exact mapM_eq_error_iff_findSome each e
  · intro es decoded
    obtain ⟨es', mapped, wrapped⟩ := bind_eq_ok.1 decoded
    simp only [pure_eq_ok, Decoded.many.injEq, heq_eq_eq, true_and] at wrapped
    subst wrapped
    have firsts : rows.zipIdx.map Prod.fst = rows := by
      rw [← List.unzip_fst, List.unzip_zipIdx_eq_prod]
    rw [← firsts, List.map_map]
    refine map_eq_of_forall₂ (mapM_eq_ok.1 mapped) fun p member x read => ?_
    have record := records p.1 (List.fst_mem_of_mem_zipIdx member)
    cases decoded : decodeRow k p.1 with
    | error f =>
      rw [decoded] at read
      cases read
    | ok y =>
      rw [decoded] at read
      cases read
      exact encodeRow_decodeRow k record decoded

/-- Parquet reads exactly the records without a fault. A record of a kind's table fails to read
exactly when some arm cell holds neither 0 nor 1 or some side's two columns differ in length, and
then with the first such fault in column order; a record that reads is written back as itself,
but for the payload of every absent arm, which comes back as the zero value's. A batch of records
fails with the first faulty row's fault behind that row's index, and otherwise reads back as
entities written back as the cleaned rows. -/
theorem records_read_unless_faulty (c : Compression) (k : EntityKind) :
    (∀ row, Record k row →
      (∀ f, decodeRow k row = .error f ↔ rowFault k.layout row = some f) ∧
        ∀ x, decodeRow k row = .ok x → encodeRow ⟨k, x⟩ = cleanRow k.layout row) ∧
    ∀ rows : List Row, (∀ row ∈ rows, Record k row) →
      (∀ e, Codec.decode (.parquet c) (.list k) (.rows (columns k) rows) = .error e ↔
          batchFault k rows = some e) ∧
        ∀ es, Codec.decode (.parquet c) (.list k) (.rows (columns k) rows) = .ok (.many k es) →
          es.map (fun x => encodeRow ⟨k, x⟩) = rows.map (cleanRow k.layout) :=
  ⟨fun _ record => ⟨decodeRow_eq_error_iff k record, fun _ read => encodeRow_decodeRow k record read⟩,
    fun _ records => decode_batch_judged c k records⟩

/-- A price row whose chain arm holds 2 and whose expiration arm holds 3 fails on its chain arm,
alone and as the second row of a batch. -/
theorem price_row_fails_on_chain_arm :
    Record .price [.bytes [], .int32 2, .int32 0, .bytes [], .bytes [], .int64 0, .int64 0, .int64 0,
        .int64 0, .int64 0, .int32 3, .int64 0] ∧
      decodeRow .price [.bytes [], .int32 2, .int32 0, .bytes [], .bytes [], .int64 0, .int64 0, .int64 0,
          .int64 0, .int64 0, .int32 3, .int64 0] =
        .error (.coded .malformedUnion "union tag 2 is neither arm") ∧
      Codec.decode (.parquet .snappy) (.list .price) (.rows (columns .price) [encodeRow ⟨.price, {}⟩,
          [.bytes [], .int32 2, .int32 0, .bytes [], .bytes [], .int64 0, .int64 0, .int64 0, .int64 0,
            .int64 0, .int32 3, .int64 0]]) =
        .error (.within "row 1" (.coded .malformedUnion "union tag 2 is neither arm")) := by
  have record : Record .price [.bytes [], .int32 2, .int32 0, .bytes [], .bytes [], .int64 0, .int64 0,
      .int64 0, .int64 0, .int64 0, .int32 3, .int64 0] := by decide
  have records : ∀ row ∈ [encodeRow ⟨.price, {}⟩, [.bytes [], .int32 2, .int32 0, .bytes [], .bytes [],
      .int64 0, .int64 0, .int64 0, .int64 0, .int64 0, .int32 3, .int64 0]], Record .price row :=
    List.forall_mem_cons.2 ⟨record_encodeRow _, List.forall_mem_cons.2 ⟨record, List.forall_mem_nil _⟩⟩
  have judged := records_read_unless_faulty .snappy .price
  exact ⟨record, ((judged.1 _ record).1 _).2 rfl, ((judged.2 _ records).1 _).2 rfl⟩

end MarketData.Parquet
