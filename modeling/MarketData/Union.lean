import MarketData.Failure

/-!
Optional fields as two-arm unions.

On the wire an optional field is a choice between two arms: the void arm (`absent`, tag 0) and
the payload arm (`present`, tag 1). In memory it is an `Option`. A tag other than 0 or 1 is
corrupt data and fails with `malformedUnion`; the payload is looked at only for the present arm,
so a failure of the payload of an absent arm never surfaces.
-/

namespace MarketData

/-- The wire tag of an optional field. -/
inductive Arm where
  /-- The void arm: no value. -/
  | absent
  /-- The payload arm: a value follows. -/
  | present
  deriving DecidableEq, Repr

namespace Arm

/-- The tag number of the arm. -/
def toNat : Arm → Nat
  | .absent => 0
  | .present => 1

/-- The arm an optional value takes. -/
def of {α : Type} : Option α → Arm
  | none => .absent
  | some _ => .present

/-- The name of a tag number: `absent`, `present`, or `Arm(n)`. -/
def nameOf (raw : Nat) : String :=
  if raw = 0 then "absent" else if raw = 1 then "present" else s!"Arm({raw})"

/-- The arm with a tag number; any other number fails with `malformedUnion`. -/
def ofWire (raw : Nat) : Except Failure Arm :=
  if raw = 0 then .ok .absent
  else if raw = 1 then .ok .present
  else .error (.coded .malformedUnion s!"union tag {raw} is neither arm")

/-- The optional value of an arm and its payload; the payload counts only for the present
arm. -/
def join {α : Type} (arm : Arm) (payload : Except Failure α) : Except Failure (Option α) :=
  match arm with
  | .absent => .ok none
  | .present => payload.map some

/-- The optional value of a tag number and its payload. -/
def joinWire {α : Type} (raw : Nat) (payload : Except Failure α) : Except Failure (Option α) := do
  let arm ← ofWire raw
  arm.join payload

theorem ofWire_toNat (a : Arm) : ofWire a.toNat = .ok a := by
  cases a <;> rfl

@[simp] theorem join_present {α : Type} (v : α) : Arm.present.join (.ok v) = .ok (some v) := rfl

@[simp] theorem join_absent {α : Type} (p : Except Failure α) : Arm.absent.join p = .ok none := rfl

end Arm

/-- The text of an optional value: `None`, or `Some(v)` with the text of the value. -/
def renderOptional {α : Type} (text : α → String) : Option α → String
  | none => "None"
  | some v => s!"Some({text v})"

/-! An optional value in memory is an `Option`, and a pointer is one too, `none` standing for nil. -/

namespace Optional

variable {α : Type}

/-- The arm of an optional and its payload, which is `zero` for the absent arm. -/
def split (zero : α) (o : Option α) : Arm × α :=
  match o with
  | none => (.absent, zero)
  | some v => (.present, v)

/-- The value of an optional, or `fallback` for the absent arm. -/
def orElse (o : Option α) (fallback : α) : α :=
  match o with
  | none => fallback
  | some v => v

/-- The JSON text of an optional: `null` for the absent arm, the payload's text otherwise. -/
def json (text : α → String) : Option α → String
  | none => "null"
  | some v => text v

/-- A pointer to a copy of an optional's value, nil for the absent arm. -/
def ptr : Option α → Option α
  | none => none
  | some v => some v

/-- The optional a pointer stands for: absent for nil. -/
def fromPtr : Option α → Option α
  | none => none
  | some v => some v

theorem split_arm (zero : α) (o : Option α) : (split zero o).1 = Arm.of o := by
  cases o <;> rfl

theorem fromPtr_ptr (o : Option α) : fromPtr (ptr o) = o := by
  cases o <;> rfl

end Optional

end MarketData
