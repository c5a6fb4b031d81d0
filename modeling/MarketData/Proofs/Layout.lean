import MarketData.Market.Entity

/-!
# Layouts as lenses

Every codec is written once over an entity's layout: it writes the slots in order and reads them
back by storing each value it meets with `Slot.set`. What the round trips need of a layout is
that its slots behave as the independent fields of a record: a slot reads back what was last
stored in it, storing what it holds changes nothing, a second store overrides the first, and a
store into one slot leaves every other slot as it is. All thirteen layouts are such lenses, and
the empty entity holds the zero of every slot.

Reading produces one normal form: a side of no levels reads back as not supplied
(`EntityKind.normalize`). Storing the normal value of every slot into the empty entity, in layout
order, gives the normal form of the entity (`EntityKind.fill_normal`).

The module ends with what a value writes, slot by slot: its floats, its ordinals and the lengths
of its texts and sides. These are the quantities the codecs refuse or bound.
-/

namespace MarketData

section Lenses

variable {α : Type}

/-- A slot that behaves as a field of a record. -/
structure Slot.Lawful (slot : Slot α) : Prop where
  /-- A slot reads back what was stored in it. -/
  get_set : ∀ v a, slot.get (slot.set v a) = v
  /-- Storing what a slot holds changes nothing. -/
  set_get : ∀ a, slot.set (slot.get a) a = a
  /-- A second store overrides the first. -/
  set_set : ∀ v w a, slot.set v (slot.set w a) = slot.set v a

/-- Two slots that are different fields: a store into either leaves the other as it is. -/
def Slot.Independent (s t : Slot α) : Prop :=
  (∀ v a, s.get (t.set v a) = s.get a) ∧ ∀ v a, t.get (s.set v a) = t.get a

/-- A layout of lawful slots, any two of them independent. -/
structure Layout.Lawful (layout : List (Slot α)) : Prop where
  /-- Every slot is a field. -/
  slots : ∀ slot ∈ layout, slot.Lawful
  /-- Different positions are different fields. -/
  independent : layout.Pairwise Slot.Independent

theorem Layout.Lawful.head_apart {slot : Slot α} {layout : List (Slot α)} (lawful : Layout.Lawful (slot :: layout)) :
    ∀ t ∈ layout, Slot.Independent slot t :=
  (List.pairwise_cons.1 lawful.independent).1

theorem Layout.Lawful.tail {slot : Slot α} {layout : List (Slot α)} (lawful : Layout.Lawful (slot :: layout)) :
    Layout.Lawful layout :=
  ⟨fun t member => lawful.slots t (.tail _ member), (List.pairwise_cons.1 lawful.independent).2⟩

/-- Stores into a value, in layout order, one value for every slot. -/
def Layout.fill (layout : List (Slot α)) (value : (slot : Slot α) → slot.shape.Value) (a : α) : α :=
  layout.foldl (fun acc slot => slot.set (value slot) acc) a

@[simp] theorem Layout.fill_nil (value : (slot : Slot α) → slot.shape.Value) (a : α) :
    Layout.fill [] value a = a := rfl

@[simp] theorem Layout.fill_cons (slot : Slot α) (layout : List (Slot α))
    (value : (slot : Slot α) → slot.shape.Value) (a : α) :
    Layout.fill (slot :: layout) value a = Layout.fill layout value (slot.set (value slot) a) := rfl

theorem Layout.fill_congr {value value' : (slot : Slot α) → slot.shape.Value} :
    ∀ {layout : List (Slot α)}, (∀ slot ∈ layout, value slot = value' slot) →
      ∀ a, Layout.fill layout value a = Layout.fill layout value' a
  | [], _, _ => rfl
  | slot :: layout, same, a => by
    rw [Layout.fill_cons, Layout.fill_cons, same slot (.head _)]
    exact Layout.fill_congr (fun t member => same t (.tail _ member)) _

end Lenses

namespace EntityKind

theorem layout_lawful (k : EntityKind) : Layout.Lawful k.layout := by
  constructor
  · cases k <;> (repeat' refine List.forall_mem_cons.2 ⟨?_, ?_⟩) <;>
      first
      | exact ⟨fun _ _ => rfl, fun _ => rfl, fun _ _ _ => rfl⟩
      | exact fun _ member => nomatch member
  · cases k <;> dsimp only [layout, Carrier] <;>
      simp only [PriceEntry.layout, OrderbookEntry.layout, DepthEntry.layout,
        FundingRateEntry.layout, TradeEntry.layout, VolumeEntry.layout, OpenInterestEntry.layout,
        PositionEntry.layout, GlobalExposureEntry.layout, MarketEntry.layout, BookEntry.layout,
        LegacyDepth.layout, List.pairwise_cons, List.forall_mem_cons, List.not_mem_nil,
        false_implies, implies_true, and_true, List.Pairwise.nil] <;>
      and_intros <;> intro _ _ <;> rfl

theorem get_empty (k : EntityKind) : ∀ slot ∈ k.layout, slot.get k.empty = slot.shape.zero := by
  cases k <;> (repeat' refine List.forall_mem_cons.2 ⟨?_, ?_⟩) <;>
    first
    | rfl
    | exact fun _ member => nomatch member

end EntityKind

/-! ## The normal form of a read -/

/-- An empty side reads back as not supplied. -/
def Levels.normal (l : Levels) : Levels := Levels.ofList l.toList

@[simp] theorem Levels.toList_normal (l : Levels) : l.normal.toList = l.toList :=
  Levels.toList_ofList _

namespace Shape

/-- The value a shape reads back as: sides, also those of a book, in normal form. An optional
value is read back as written, since no layout makes a side optional. -/
def normal : (s : Shape) → s.Value → s.Value
  | .levels, v => Levels.normal v
  | .book, v => { v with bids := Levels.normal v.bids, asks := Levels.normal v.asks }
  | .text, v => v
  | .int, v => v
  | .word, v => v
  | .float, v => v
  | .amount, v => v
  | .ordinal _, v => v
  | .pair, v => v
  | .depth, v => v
  | .header, v => v
  | .optional _, v => v

/-- A shape written as one value: no side, no book and no choice. -/
def isPlain : Shape → Bool
  | .levels | .book | .optional _ => false
  | _ => true

/-- Whether a shape is optional only over a plain one. -/
def optionalPlain : Shape → Bool
  | .optional s => s.isPlain
  | _ => true

theorem normal_of_isPlain {s : Shape} (plain : s.isPlain = true) (v : s.Value) : s.normal v = v := by
  cases s <;> first | rfl | cases plain

theorem optionalPlain_of_isPlain {s : Shape} (plain : s.isPlain = true) : s.optionalPlain = true := by
  cases s <;> first | rfl | cases plain

end Shape

namespace EntityKind

/-- The normal form of an entity: every empty side of a book becomes not supplied. -/
def normalize : (k : EntityKind) → k.Carrier → k.Carrier
  | .orderbook, e =>
    { e with data := { e.data with bids := Levels.normal e.data.bids, asks := Levels.normal e.data.asks } }
  | .snapshot, e => { e with bids := Levels.normal e.bids, asks := Levels.normal e.asks }
  | .update, e => { e with bids := Levels.normal e.bids, asks := Levels.normal e.asks }
  | .price, e => e
  | .depth, e => e
  | .fundingRate, e => e
  | .trade, e => e
  | .volume, e => e
  | .openInterest, e => e
  | .position, e => e
  | .globalExposure, e => e
  | .market, e => e
  | .legacyDepth, e => e

theorem fill_normal (k : EntityKind) (v : k.Carrier) :
    Layout.fill k.layout (fun slot => slot.shape.normal (slot.get v)) k.empty = k.normalize v := by
  cases k <;> rfl

theorem optionalPlain_layout (k : EntityKind) : ∀ slot ∈ k.layout, slot.shape.optionalPlain = true := by
  cases k <;> decide

end EntityKind

/-! ## What a value writes -/

/-- The prices and quantities of a side, level by level. -/
def Levels.floats (l : Levels) : List F64 := l.toList.flatMap fun x => [x.price, x.quantity]

namespace Shape

/-- The floats a value holds, in the order they are written; an absent value holds none. -/
def floats : (s : Shape) → s.Value → List F64
  | .float, v => [v]
  | .depth, v => [v.percentage, v.bid, v.ask]
  | .book, v => v.bids.floats ++ v.asks.floats
  | .levels, v => v.floats
  | .optional s, some v => s.floats v
  | .optional _, none => []
  | .text, _ => []
  | .int, _ => []
  | .word, _ => []
  | .amount, _ => []
  | .ordinal _, _ => []
  | .pair, _ => []
  | .header, _ => []

/-- The ordinals a value holds; an absent value holds none. -/
def ordinals : (s : Shape) → s.Value → List UInt32
  | .ordinal _, v => [v.val]
  | .optional s, some v => s.ordinals v
  | .optional _, none => []
  | .text, _ => []
  | .int, _ => []
  | .word, _ => []
  | .float, _ => []
  | .amount, _ => []
  | .pair, _ => []
  | .depth, _ => []
  | .book, _ => []
  | .header, _ => []
  | .levels, _ => []

/-- The lengths of the texts and the sides a value holds: bytes of a text, levels of a side. -/
def lengths : (s : Shape) → s.Value → List Nat
  | .text, v => [v.length]
  | .pair, v => [v.base.length, v.quote.length]
  | .header, v => [v.source.length, v.publisher.length]
  | .book, v => [v.bids.toList.length, v.asks.toList.length]
  | .levels, v => [v.toList.length]
  | .optional s, some v => s.lengths v
  | .optional _, none => []
  | .int, _ => []
  | .word, _ => []
  | .float, _ => []
  | .amount, _ => []
  | .ordinal _, _ => []
  | .depth, _ => []

end Shape

namespace Entity

/-- The floats an entity holds, slot by slot. -/
def floats (e : Entity) : List F64 := e.kind.layout.flatMap fun slot => slot.shape.floats (slot.get e.value)

/-- The ordinals an entity holds, slot by slot. -/
def ordinals (e : Entity) : List UInt32 :=
  e.kind.layout.flatMap fun slot => slot.shape.ordinals (slot.get e.value)

/-- The lengths of the texts and sides an entity holds, slot by slot. -/
def lengths (e : Entity) : List Nat := e.kind.layout.flatMap fun slot => slot.shape.lengths (slot.get e.value)

end Entity

end MarketData
