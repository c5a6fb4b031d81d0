import MarketData.Proofs.Borsh.Reading
import MarketData.Proofs.Except
import MarketData.Proofs.Layout

/-!
# What the borsh writer refuses

The writer refuses two kinds of value and no other: an ordinal above 255, which does not fit
its one byte, and a NaN float, which the format cannot carry. A value that holds neither is
`Writable` and is written (`encodeValue_ok_iff`); every refusal is out of range
(`encodeValue_refusal`). A float and a side are written as the bytes their readers take
(`float_eq_ok`, `levels_eq_ok`).
-/

namespace MarketData.Borsh

/-! ## Floats and sides -/

theorem float_eq_ok {x : F64} {w : Bytes} :
    float x = .ok w ↔ x.isNaN = false ∧ w = Bytes.littleEndian 8 x.bits.toNat := by
  unfold float
  cases x.isNaN with
  | true => exact ⟨fun wrote => (nomatch wrote), fun ⟨number, _⟩ => (nomatch number)⟩
  | false => exact ⟨fun wrote => by cases wrote; exact ⟨rfl, rfl⟩, fun ⟨_, bytes⟩ => by rw [bytes]; rfl⟩

theorem float_refusal {x : F64} {f : Failure} (refused : float x = .error f) :
    f = unwritable "NaN float value" := by
  unfold float at refused
  split at refused
  · cases refused
    rfl
  · cases refused

theorem levelBytes_eq_ok {x : Level} {w : Bytes} :
    (do pure ((← float x.price) ++ (← float x.quantity)) : Except Failure Bytes) = .ok w ↔
      (x.price.isNaN = false ∧ x.quantity.isNaN = false) ∧ w = levelBytes x := by
  simp only [bind_eq_ok, float_eq_ok]
  constructor
  · rintro ⟨_, ⟨price, rfl⟩, _, ⟨quantity, rfl⟩, wrote⟩
    cases wrote
    exact ⟨⟨price, quantity⟩, rfl⟩
  · rintro ⟨⟨price, quantity⟩, rfl⟩
    exact ⟨_, ⟨price, rfl⟩, _, ⟨quantity, rfl⟩, rfl⟩

theorem numbers_flatMap {xs : List Level} :
    (∀ y ∈ xs.flatMap (fun x => [x.price, x.quantity]), y.isNaN = false) ↔
      ∀ x ∈ xs, x.price.isNaN = false ∧ x.quantity.isNaN = false := by
  constructor
  · intro numbers x member
    exact ⟨numbers _ (List.mem_flatMap.2 ⟨x, member, by simp⟩),
      numbers _ (List.mem_flatMap.2 ⟨x, member, by simp⟩)⟩
  · intro numbers y member
    obtain ⟨x, within, mine⟩ := List.mem_flatMap.1 member
    simp only [List.mem_cons, List.not_mem_nil, or_false] at mine
    rcases mine with rfl | rfl
    · exact (numbers x within).1
    · exact (numbers x within).2

theorem levels_eq_ok {l : Levels} {w : Bytes} :
    levels l = .ok w ↔
      (∀ y ∈ l.floats, y.isNaN = false) ∧ w = length l.toList.length ++ l.toList.flatMap levelBytes := by
  unfold levels Levels.floats
  generalize l.toList = xs
  rw [bind_eq_ok]
  simp only [mapM_eq_ok, levelBytes_eq_ok, forall₂_eq_map, numbers_flatMap, pure_eq_ok]
  constructor
  · rintro ⟨_, ⟨numbers, rfl⟩, rfl⟩
    exact ⟨numbers, by rw [List.flatMap_def]⟩
  · rintro ⟨numbers, rfl⟩
    exact ⟨_, ⟨numbers, rfl⟩, by rw [List.flatMap_def]⟩

theorem levels_refusal {l : Levels} {f : Failure} (refused : levels l = .error f) :
    f = unwritable "NaN float value" := by
  unfold levels at refused
  rcases bind_eq_error.1 refused with refused | ⟨_, _, refused⟩
  · obtain ⟨x, _, refused⟩ := mapM_eq_error refused
    rcases bind_eq_error.1 refused with refused | ⟨_, _, refused⟩
    · exact float_refusal refused
    · rcases bind_eq_error.1 refused with refused | ⟨_, _, refused⟩
      · exact float_refusal refused
      · cases refused
  · cases refused

/-! ## Values -/

/-- A value the writer takes: its ordinals fit a byte, and none of its floats is NaN. -/
def Writable (s : Shape) (v : s.Value) : Prop :=
  (∀ o ∈ s.ordinals v, o.toNat < 256) ∧ ∀ y ∈ s.floats v, y.isNaN = false

theorem float_isOk (x : F64) : (∃ w, float x = .ok w) ↔ x.isNaN = false := by
  simp [float_eq_ok]

theorem levels_isOk (l : Levels) : (∃ w, levels l = .ok w) ↔ ∀ y ∈ l.floats, y.isNaN = false := by
  simp [levels_eq_ok]

/-- The writer takes exactly the writable values. -/
theorem encodeValue_ok_iff (s : Shape) (v : s.Value) :
    (∃ w, encodeValue s v = .ok w) ↔ Writable s v := by
  induction s with
  | text | int | word | amount | pair | header =>
    simp [encodeValue, Writable, Shape.ordinals, Shape.floats]
  | float =>
    change F64 at v
    exact (float_isOk v).trans (by simp [Writable, Shape.ordinals, Shape.floats])
  | levels =>
    change Levels at v
    exact (levels_isOk v).trans (by simp [Writable, Shape.ordinals, Shape.floats])
  | ordinal e =>
    simp only [encodeValue, Writable, Shape.ordinals, Shape.floats]
    by_cases small : v.val.toNat < 256
    · simp [small]
    · simp [small]
  | depth =>
    simp only [encodeValue, bind_eq_ok, pure_eq_ok]
    simp [Writable, Shape.ordinals, Shape.floats, float_eq_ok]
  | book =>
    simp only [encodeValue, bind_eq_ok, pure_eq_ok]
    simp [Writable, Shape.ordinals, Shape.floats, levels_eq_ok, or_imp, forall_and]
  | optional s inductionHypothesis =>
    cases v with
    | none => simp [encodeValue, Writable, Shape.ordinals, Shape.floats]
    | some v =>
      rw [show Writable (.optional s) (some v) ↔ Writable s v from Iff.rfl, ← inductionHypothesis v]
      simp only [encodeValue, bind_eq_ok, pure_eq_ok]
      constructor
      · rintro ⟨_, w, wrote, _⟩
        exact ⟨w, wrote⟩
      · rintro ⟨w, wrote⟩
        exact ⟨_, w, wrote, rfl⟩

/-- Every failure of a computation is a value out of range. -/
def RangeRefusal {α : Type} (x : Except Failure α) : Prop :=
  ∀ f, x = .error f → f.code? = some .rangeExceeded

namespace RangeRefusal

variable {α β : Type}

theorem ok (a : α) : RangeRefusal (.ok a : Except Failure α) := fun _ refused => nomatch refused

theorem unwritable (reason : String) : RangeRefusal (.error (unwritable reason) : Except Failure α) :=
  fun _ refused => by cases refused; rfl

theorem bind {x : Except Failure α} {g : α → Except Failure β} (first : RangeRefusal x)
    (rest : ∀ a, RangeRefusal (g a)) : RangeRefusal (x >>= g) := by
  intro f refused
  rcases bind_eq_error.1 refused with refused | ⟨a, _, refused⟩
  · exact first f refused
  · exact rest a f refused

theorem mapM {g : α → Except Failure β} (each : ∀ a, RangeRefusal (g a)) (xs : List α) :
    RangeRefusal (xs.mapM g) := by
  intro f refused
  obtain ⟨x, _, refused⟩ := mapM_eq_error refused
  exact each x f refused

theorem float (x : F64) : RangeRefusal (Borsh.float x) := by
  intro f refused
  rw [float_refusal refused]
  rfl

theorem levels (l : Levels) : RangeRefusal (Borsh.levels l) := by
  intro f refused
  rw [levels_refusal refused]
  rfl

end RangeRefusal

/-- The writer refuses a value only as out of range. -/
theorem encodeValue_refusal (s : Shape) (v : s.Value) : RangeRefusal (encodeValue s v) := by
  induction s with
  | text | int | word | amount | pair | header => exact RangeRefusal.ok _
  | float => exact RangeRefusal.float v
  | ordinal e =>
    unfold encodeValue
    split
    · exact RangeRefusal.ok _
    · exact RangeRefusal.unwritable _
  | depth =>
    exact (RangeRefusal.float _).bind fun _ => (RangeRefusal.float _).bind fun _ =>
      (RangeRefusal.float _).bind fun _ => RangeRefusal.ok _
  | book =>
    exact (RangeRefusal.levels _).bind fun _ => (RangeRefusal.levels _).bind fun _ => RangeRefusal.ok _
  | levels => exact RangeRefusal.levels v
  | optional s inductionHypothesis =>
    cases v with
    | none => exact RangeRefusal.ok _
    | some v => exact (inductionHypothesis v).bind fun _ => RangeRefusal.ok _

/-! ## Layouts -/

section Layouts

variable {α : Type}

theorem encodeSlots_eq_ok {layout : List (Slot α)} {a : α} {b : Bytes} :
    encodeSlots layout a = .ok b ↔
      ∃ parts, List.Forall₂ (fun slot w => encodeValue slot.shape (slot.get a) = .ok w) layout parts ∧
        b = parts.flatten := by
  unfold encodeSlots
  rw [bind_eq_ok]
  simp only [mapM_eq_ok, pure_eq_ok]
  exact exists_congr fun _ => and_congr_right fun _ => eq_comm

theorem encodeSlots_isOk (layout : List (Slot α)) (a : α) :
    (∃ b, encodeSlots layout a = .ok b) ↔ ∀ slot ∈ layout, Writable slot.shape (slot.get a) := by
  refine Iff.trans ?_ (mapM_isOk fun (slot : Slot α) => encodeValue_ok_iff slot.shape (slot.get a))
  unfold encodeSlots
  simp only [bind_eq_ok, pure_eq_ok]
  constructor
  · rintro ⟨_, parts, mapped, _⟩
    exact ⟨parts, mapped⟩
  · rintro ⟨parts, mapped⟩
    exact ⟨_, parts, mapped, rfl⟩

theorem encodeSlots_refusal (layout : List (Slot α)) (a : α) : RangeRefusal (encodeSlots layout a) := by
  unfold encodeSlots
  exact (RangeRefusal.mapM (fun slot => encodeValue_refusal slot.shape (slot.get a)) layout).bind
    fun parts => RangeRefusal.ok parts.flatten

end Layouts

end MarketData.Borsh
