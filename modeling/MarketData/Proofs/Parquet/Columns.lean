import MarketData.Proofs.Parquet.RoundTrip
import MarketData.Proofs.Protobuf.RoundTrip

/-!
# Each column carries the field it names

Every column of an entity's table names, by its `field` tag, the entity field it is cut from.
This module proves that the tag tells the truth about the data, in both directions, for every
kind and every column (`columns_carry_fields`):

* a column's cell in the row of an entity depends only on the field the tag names: two entities
  that agree on that field have the same cell there;
* what a row reads back as for a field depends only on the cells of the columns tagged with that
  field: two rows that read back and agree on those columns read back with the same field.

An optional field is one field with two numbers, its void arm and its payload arm
(`Protobuf.slotNumbers`): its arm column carries the first and its payload columns the second,
and both follow the optional value as a whole. The columns are numbered by position, from 1, and
a row has one cell per column.

Both directions rest on positions. The columns of a kind are the columns of its slots in layout
order, as many for each slot as a value of its shape has cells (`Parquet.cellCount`), and a
reader of a shape takes exactly that many cells (`TakesCells`).
-/

namespace MarketData.Parquet

open Protobuf (slotNumbers)

variable {α β : Type}

/-! ## Readers of a fixed number of cells -/

/-- `R` reads the first `n` cells of a row: whenever it gives a value it leaves the rest of the
row, and it gives the same value on every row that starts with the same `n` cells. -/
def TakesCells (R : CellReader α) (n : Nat) : Prop :=
  ∀ r r' : Row, ∀ x : α, ∀ rest : Row, r.take n = r'.take n → R.run r = .ok (x, rest) →
    rest = r.drop n ∧ R.run r' = .ok (x, r'.drop n)

namespace TakesCells

theorem of_count {R : CellReader α} {n m : Nat} (same : n = m) (takes : TakesCells R n) :
    TakesCells R m :=
  same ▸ takes

theorem bind {R : CellReader α} {f : α → CellReader β} {n m : Nat} (first : TakesCells R n)
    (second : ∀ x, TakesCells (f x) m) : TakesCells (R >>= f) (n + m) := by
  intro r r' y rest same read
  obtain ⟨x, middle, readFirst, readSecond⟩ := run_bind_eq_ok read
  have sameFirst : r.take n = r'.take n := by
    have cut := congrArg (List.take n) same
    rwa [List.take_take, List.take_take, Nat.min_eq_left (Nat.le_add_right n m)] at cut
  obtain ⟨rfl, readFirst'⟩ := first _ _ _ _ sameFirst readFirst
  -- the next `m` cells after the first `n` agree too
  have sameSecond : (r.drop n).take m = (r'.drop n).take m := by
    have window : ∀ l : Row, (l.drop n).take m = (l.take (n + m)).drop n := fun l => by
      rw [List.drop_take, Nat.add_sub_cancel_left]
    rw [window r, window r', same]
  obtain ⟨rfl, readSecond'⟩ := second x _ _ _ _ sameSecond readSecond
  refine ⟨by rw [List.drop_drop], ?_⟩
  rw [StateT.run_bind, readFirst']
  simpa [List.drop_drop] using readSecond'

end TakesCells

theorem takesCells_pure (x : α) : TakesCells (pure x : CellReader α) 0 := by
  intro r r' y rest _ read
  cases read
  exact ⟨rfl, rfl⟩

theorem takesCells_throw (f : Failure) (n : Nat) : TakesCells (throw f : CellReader α) n := by
  intro r r' y rest _ read
  cases read

theorem takesCells_nextCell : TakesCells nextCell 1 := by
  intro r r' c rest same read
  cases r with
  | nil =>
    cases read
    cases r' with
    | nil => exact ⟨rfl, rfl⟩
    | cons _ _ => cases same
  | cons d r =>
    cases read
    cases r' with
    | nil => cases same
    | cons d' r' =>
      cases same
      exact ⟨rfl, rfl⟩

theorem takesCells_nextCell_bind {k : Cell → CellReader α} (made : ∀ c, TakesCells (k c) 0) :
    TakesCells (nextCell >>= k) 1 :=
  takesCells_nextCell.bind made

theorem takesCells_nextBytes : TakesCells nextBytes 1 :=
  takesCells_nextCell_bind fun c => by cases c <;> exact takesCells_pure _

theorem takesCells_nextInt32 : TakesCells nextInt32 1 :=
  takesCells_nextCell_bind fun c => by cases c <;> exact takesCells_pure _

theorem takesCells_nextInt64 : TakesCells nextInt64 1 :=
  takesCells_nextCell_bind fun c => by cases c <;> exact takesCells_pure _

theorem takesCells_nextDouble : TakesCells nextDouble 1 :=
  takesCells_nextCell_bind fun c => by cases c <;> exact takesCells_pure _

theorem takesCells_nextDoubles : TakesCells nextDoubles 1 :=
  takesCells_nextCell_bind fun c => by cases c <;> exact takesCells_pure _

theorem takesCells_readSide (side : String) : TakesCells (readSide side) 2 := by
  show TakesCells _ (1 + (1 + 0))
  unfold readSide
  refine takesCells_nextDoubles.bind fun prices => takesCells_nextDoubles.bind fun quantities => ?_
  -- columns of unequal lengths fail; otherwise the side is made without reading further
  dsimp only
  split
  · exact (takesCells_throw _ 0).bind fun _ => takesCells_pure _
  · exact takesCells_pure _

theorem takesCells_readCells (key : String) (s : Shape) : TakesCells (readCells key s) (cellCount s) := by
  induction s with
  | text => exact takesCells_nextBytes
  | int => exact takesCells_nextInt64.bind fun _ => takesCells_pure _
  | word => exact takesCells_nextInt64
  | float => exact takesCells_nextDouble
  | amount => exact takesCells_nextInt64.bind fun _ => takesCells_nextInt64.bind fun _ => takesCells_pure _
  | ordinal => exact takesCells_nextInt32.bind fun _ => takesCells_pure _
  | pair => exact takesCells_nextBytes.bind fun _ => takesCells_nextBytes.bind fun _ => takesCells_pure _
  | depth =>
    exact takesCells_nextDouble.bind fun _ => takesCells_nextDouble.bind fun _ =>
      takesCells_nextDouble.bind fun _ => takesCells_pure _
  | book =>
    exact takesCells_nextInt64.bind fun _ => (takesCells_readSide _).bind fun _ =>
      (takesCells_readSide _).bind fun _ => takesCells_pure _
  | header =>
    exact takesCells_nextInt64.bind fun _ => takesCells_nextBytes.bind fun _ =>
      takesCells_nextBytes.bind fun _ => takesCells_pure _
  | levels => exact takesCells_readSide key
  | optional s inductionHypothesis =>
    -- the arm, then the payload's cells whichever the arm, then the choice
    refine (takesCells_nextInt32.bind fun raw => inductionHypothesis.bind fun payload => (?_ : TakesCells _ 0)).of_count
      (by simp only [cellCount]; omega)
    split
    · exact takesCells_throw _ 0
    · exact takesCells_pure _
    · exact takesCells_pure _

/-! ## The columns of a slot -/

/-- The field numbers of the columns a slot numbered `id` of a shape is written to: an optional
value's arm column carries the void arm's number and its payload columns the payload arm's;
every column of a value of another shape carries the slot's number. -/
def cellTags (id : Nat) : Shape → List Nat
  | .optional s => id :: List.replicate (cellCount s) (id + 1)
  | s => List.replicate (cellCount s) id

theorem length_cellTags (id : Nat) (s : Shape) : (cellTags id s).length = cellCount s := by
  cases s <;> simp [cellTags, cellCount]

theorem mem_slotNumbers_of_cellTags {slot : Slot α} {n : Nat} (tagged : n ∈ cellTags slot.id slot.shape) :
    n ∈ slotNumbers slot := by
  obtain ⟨id, key, shape, get, set⟩ := slot
  cases shape <;> simp_all [cellTags, slotNumbers, List.mem_replicate]
  omega

theorem columns_field (k : EntityKind) :
    (columns k).map (·.field) = k.layout.flatMap fun slot => cellTags slot.id slot.shape := by
  cases k <;> rfl

theorem columns_id (k : EntityKind) : (columns k).map (·.id) = List.range' 1 (columns k).length := by
  cases k <;> rfl

theorem columns_cover (k : EntityKind) :
    (∀ c ∈ columns k, ∃ slot ∈ k.layout, c.field ∈ slotNumbers slot) ∧
      ∀ slot ∈ k.layout, ∀ n ∈ slotNumbers slot, ∃ c ∈ columns k, c.field = n := by
  cases k <;> decide

/-! ## Writing: a cell follows the field its column names -/

/-- Lists cut into blocks of the same lengths as a list of tags agree at a position when the
blocks agree wherever the tag at that position occurs. -/
theorem getElem?_flatMap_congr {γ : Type} {F G : β → List γ} {T : β → List Nat} :
    ∀ {xs : List β}, (∀ x ∈ xs, (F x).length = (T x).length ∧ (G x).length = (T x).length) →
      ∀ {i n : Nat}, (xs.flatMap T)[i]? = some n → (∀ x ∈ xs, n ∈ T x → F x = G x) →
        (xs.flatMap F)[i]? = (xs.flatMap G)[i]?
  | [], _, _, _, tagged, _ => by simp at tagged
  | x :: xs, aligned, i, n, tagged, agree => by
    rw [List.flatMap_cons] at tagged ⊢
    rw [List.flatMap_cons]
    obtain ⟨lengthF, lengthG⟩ := aligned x (.head _)
    by_cases inside : i < (T x).length
    · rw [List.getElem?_append_left inside] at tagged
      rw [List.getElem?_append_left (lengthF ▸ inside), List.getElem?_append_left (lengthG ▸ inside),
        agree x (.head _) (List.mem_of_getElem? tagged)]
    · rw [List.getElem?_append_right (Nat.le_of_not_lt inside)] at tagged
      rw [List.getElem?_append_right (by omega), List.getElem?_append_right (by omega), lengthF, lengthG]
      exact getElem?_flatMap_congr (fun y member => aligned y (.tail _ member)) tagged
        fun y member => agree y (.tail _ member)

theorem getElem?_rowOf_congr {layout : List (Slot α)} {i n : Nat}
    (tagged : (layout.flatMap fun slot => cellTags slot.id slot.shape)[i]? = some n) {v w : α}
    (agree : ∀ slot ∈ layout, n ∈ slotNumbers slot → slot.get v = slot.get w) :
    (rowOf layout v)[i]? = (rowOf layout w)[i]? :=
  getElem?_flatMap_congr (fun slot _ => by simp only [length_cells, length_cellTags, and_self]) tagged
    fun slot member tag => by rw [agree slot member (mem_slotNumbers_of_cellTags tag)]

/-! ## Reading: a field follows the columns that carry it -/

/-- One step of reading a row: a slot's value, read from the next cells, stored into the value. -/
def storeSlot (a : α) (slot : Slot α) : CellReader α := do
  pure (slot.set (← readCells slot.key slot.shape) a)

theorem ofRow_eq_run' (layout : List (Slot α)) (init : α) (row : Row) :
    ofRow layout init row = (layout.foldlM storeSlot init).run' row :=
  rfl

theorem run_of_ofRow_eq_ok {layout : List (Slot α)} {init x : α} {row : Row}
    (read : ofRow layout init row = .ok x) :
    ∃ rest, (layout.foldlM storeSlot init).run row = .ok (x, rest) := by
  rw [ofRow_eq_run', StateT.run'_eq] at read
  cases run : (layout.foldlM storeSlot init).run row with
  | error e =>
    rw [run] at read
    cases read
  | ok p =>
    rw [run] at read
    cases read
    exact ⟨p.2, rfl⟩

theorem run_storeSlot_eq_ok {slot : Slot α} {a x : α} {r rest : Row}
    (read : (storeSlot a slot).run r = .ok (x, rest)) :
    ∃ v, (readCells slot.key slot.shape).run r = .ok (v, rest) ∧ x = slot.set v a := by
  obtain ⟨v, middle, readValue, stored⟩ := run_bind_eq_ok read
  cases stored
  exact ⟨v, readValue, rfl⟩

theorem get_foldlM_of_independent {s : Slot α} :
    ∀ {slots : List (Slot α)}, (∀ t ∈ slots, s.Independent t) → ∀ {a x : α} {r rest : Row},
      (slots.foldlM storeSlot a).run r = .ok (x, rest) → s.get x = s.get a
  | [], _, _, _, _, _, read => by
    cases read
    rfl
  | t :: slots, apart, a, x, r, rest, read => by
    rw [List.foldlM_cons] at read
    obtain ⟨b, middle, readT, readRest⟩ := run_bind_eq_ok read
    obtain ⟨v, -, rfl⟩ := run_storeSlot_eq_ok readT
    rw [get_foldlM_of_independent (fun u member => apart u (.tail _ member)) readRest]
    exact (apart t (.head _)).1 v a

theorem take_congr {r r' : Row} {n : Nat} (agree : ∀ i < n, r[i]? = r'[i]?) : r.take n = r'.take n := by
  apply List.ext_getElem?
  intro i
  rw [List.getElem?_take, List.getElem?_take]
  split
  · exact agree i ‹_›
  · rfl

/-- Two readings of rows under a lawful layout give a slot the same value when the rows agree at
every position whose column carries one of the slot's numbers. -/
theorem get_foldlM_congr :
    ∀ {slots : List (Slot α)}, Layout.Lawful slots → ∀ {a a' x x' : α} {r r' rest rest' : Row},
      (slots.foldlM storeSlot a).run r = .ok (x, rest) →
      (slots.foldlM storeSlot a').run r' = .ok (x', rest') → ∀ s ∈ slots,
      (∀ i n : Nat, (slots.flatMap fun t => cellTags t.id t.shape)[i]? = some n → n ∈ slotNumbers s →
        r[i]? = r'[i]?) → s.get x = s.get x'
  | [], _, _, _, _, _, _, _, _, _, _, _, _, member, _ => by cases member
  | t :: slots, lawful, a, a', x, x', r, r', rest, rest', read, read', s, member, agree => by
    rw [List.foldlM_cons] at read read'
    obtain ⟨b, middle, readT, readRest⟩ := run_bind_eq_ok read
    obtain ⟨v, readV, rfl⟩ := run_storeSlot_eq_ok readT
    obtain ⟨b', middle', readT', readRest'⟩ := run_bind_eq_ok read'
    obtain ⟨v', readV', rfl⟩ := run_storeSlot_eq_ok readT'
    have takes := takesCells_readCells t.key t.shape
    obtain ⟨rfl, -⟩ := takes r r v middle rfl readV
    obtain ⟨rfl, -⟩ := takes r' r' v' middle' rfl readV'
    obtain ⟨apart, independent⟩ := List.pairwise_cons.1 lawful.independent
    rcases List.mem_cons.1 member with rfl | later
    · -- the first slot's cells agree, so it reads the same value; the slots after it leave it alone
      have window : r.take (cellCount s.shape) = r'.take (cellCount s.shape) := by
        refine take_congr fun i inside => ?_
        rw [← length_cellTags s.id] at inside
        refine agree i _ ?_ (mem_slotNumbers_of_cellTags (List.getElem_mem inside))
        rw [List.flatMap_cons, List.getElem?_append_left inside, List.getElem?_eq_getElem inside]
      obtain ⟨-, readV''⟩ := takes r r' v _ window readV
      rw [readV''] at readV'
      cases readV'
      have lawfulS := lawful.slots s (.head _)
      calc s.get x = s.get (s.set v a) := get_foldlM_of_independent apart readRest
        _ = s.get (s.set v a') := by rw [lawfulS.get_set, lawfulS.get_set]
        _ = s.get x' := (get_foldlM_of_independent apart readRest').symm
    · -- a later slot: its columns come after the first slot's cells, which both rows drop
      refine get_foldlM_congr ⟨fun u member => lawful.slots u (.tail _ member), independent⟩
        readRest readRest' s later fun i n tagged numbered => ?_
      rw [List.getElem?_drop, List.getElem?_drop]
      refine agree (cellCount t.shape + i) n ?_ numbered
      rw [List.flatMap_cons, List.getElem?_append_right (by rw [length_cellTags]; omega),
        length_cellTags, Nat.add_sub_cancel_left]
      exact tagged

/-! ## Every kind's columns -/

theorem flatMap_cellTags_getElem? {k : EntityKind} {i : Nat} {c : Column} (column : (columns k)[i]? = some c) :
    (k.layout.flatMap fun slot => cellTags slot.id slot.shape)[i]? = some c.field := by
  rw [← columns_field, List.getElem?_map, column, Option.map_some]

theorem getElem?_encodeRow_congr {k : EntityKind} {i : Nat} {c : Column} (column : (columns k)[i]? = some c)
    {v w : k.Carrier} (agree : ∀ slot ∈ k.layout, c.field ∈ slotNumbers slot → slot.get v = slot.get w) :
    (encodeRow ⟨k, v⟩)[i]? = (encodeRow ⟨k, w⟩)[i]? :=
  getElem?_rowOf_congr (flatMap_cellTags_getElem? column) agree

theorem get_decodeRow_congr {k : EntityKind} {r r' : Row} {x x' : k.Carrier} (read : decodeRow k r = .ok x)
    (read' : decodeRow k r' = .ok x') {slot : Slot k.Carrier} (member : slot ∈ k.layout)
    (agree : ∀ (i : Nat) (c : Column), (columns k)[i]? = some c → c.field ∈ slotNumbers slot → r[i]? = r'[i]?) :
    slot.get x = slot.get x' := by
  obtain ⟨rest, run⟩ := run_of_ofRow_eq_ok read
  obtain ⟨rest', run'⟩ := run_of_ofRow_eq_ok read'
  refine get_foldlM_congr k.layout_lawful run run' slot member fun i n tagged numbered => ?_
  rw [← columns_field, List.getElem?_map] at tagged
  obtain ⟨c, column, rfl⟩ := Option.map_eq_some_iff.1 tagged
  exact agree i c column numbered

/-- The columns of every kind describe the rows written under them: they are numbered by
position from 1, a row has one cell per column, each column's tag is a number of a field and each
number of a field tags a column, a cell depends only on the field its column's tag names, and the
field read back from a row depends only on the columns tagged with its numbers. -/
theorem columns_carry_fields (k : EntityKind) :
    (columns k).map (·.id) = List.range' 1 (columns k).length ∧
    (∀ v : k.Carrier, (encodeRow ⟨k, v⟩).length = (columns k).length) ∧
    ((∀ c ∈ columns k, ∃ slot ∈ k.layout, c.field ∈ slotNumbers slot) ∧
      ∀ slot ∈ k.layout, ∀ n ∈ slotNumbers slot, ∃ c ∈ columns k, c.field = n) ∧
    (∀ (i : Nat) (c : Column), (columns k)[i]? = some c → ∀ v w : k.Carrier,
      (∀ slot ∈ k.layout, c.field ∈ slotNumbers slot → slot.get v = slot.get w) →
      (encodeRow ⟨k, v⟩)[i]? = (encodeRow ⟨k, w⟩)[i]?) ∧
    (∀ (r r' : Row) (x x' : k.Carrier), decodeRow k r = .ok x → decodeRow k r' = .ok x' →
      ∀ slot ∈ k.layout,
        (∀ (i : Nat) (c : Column), (columns k)[i]? = some c → c.field ∈ slotNumbers slot → r[i]? = r'[i]?) →
        slot.get x = slot.get x') :=
  ⟨columns_id k, fun v => length_encodeRow ⟨k, v⟩, columns_cover k,
    fun _ _ column _ _ agree => getElem?_encodeRow_congr column agree,
    fun _ _ _ _ read read' _ member agree => get_decodeRow_congr read read' member agree⟩

end MarketData.Parquet
