/-!
Failures.

Every operation of the library that can go wrong returns a `Failure`, which records its cause.
Most causes belong to one of six kinds (`Code`): a value that does not fit its destination, an
enumeration ordinal past its registry, a union tag outside its two arms, a corrupt or truncated
payload, a type a format cannot carry, and a malformed pair identifier. A few causes carry no
kind (`plain`), callers may put context in front of a cause (`within`), and a columnar file that
cannot be read at all keeps no detail (`unreadable`).

The text of a failure is `"<Kind>: <reason>"` for a kinded cause, the reason alone for a plain
one, and each context adds `"<context>: "` in front.
-/

namespace MarketData

/-- The kinds of failure. -/
inductive Code where
  /-- A value is not representable in its destination type. -/
  | rangeExceeded
  /-- An enumeration ordinal is not in its registry. -/
  | unknownEnumerant
  /-- A union tag lies outside its two arms. -/
  | malformedUnion
  /-- A payload is corrupt or truncated. -/
  | malformedPayload
  /-- A type has no encoding in a format. -/
  | unsupportedType
  /-- A pair identifier is not `BASE/QUOTE`. -/
  | invalidPair
  deriving DecidableEq, Repr

namespace Code

/-- The number of a kind; kinds are numbered from 1. -/
def toNat : Code → Nat
  | .rangeExceeded => 1
  | .unknownEnumerant => 2
  | .malformedUnion => 3
  | .malformedPayload => 4
  | .unsupportedType => 5
  | .invalidPair => 6

/-- The kind with a number, if any. -/
def ofNat? : Nat → Option Code
  | 1 => some .rangeExceeded
  | 2 => some .unknownEnumerant
  | 3 => some .malformedUnion
  | 4 => some .malformedPayload
  | 5 => some .unsupportedType
  | 6 => some .invalidPair
  | _ => none

/-- The name of a kind. -/
def name : Code → String
  | .rangeExceeded => "RangeExceeded"
  | .unknownEnumerant => "UnknownEnumerant"
  | .malformedUnion => "MalformedUnion"
  | .malformedPayload => "MalformedPayload"
  | .unsupportedType => "UnsupportedType"
  | .invalidPair => "InvalidPair"

/-- What a kind means, in one phrase. -/
def meaning : Code → String
  | .rangeExceeded => "value not representable in destination type"
  | .unknownEnumerant => "enumeration ordinal not in registry"
  | .malformedUnion => "union tag outside its two arms"
  | .malformedPayload => "payload is corrupt or truncated"
  | .unsupportedType => "type has no encoding in this format"
  | .invalidPair => "pair identifier is not BASE/QUOTE"

/-- The name of any kind number; a number that names no kind is shown as `Code(n)`. -/
def nameOfInt (n : Int) : String :=
  match n.toNat? >>= ofNat? with
  | some c => c.name
  | none => s!"Code({n})"

/-- The meaning of any kind number. -/
def meaningOfInt (n : Int) : String :=
  match n.toNat? >>= ofNat? with
  | some c => c.meaning
  | none => "unknown error"

/-- The text of a failure of any kind number, with no further reason: its name and meaning. -/
def textOfInt (n : Int) : String := s!"{nameOfInt n}: {meaningOfInt n}"

theorem ofNat?_toNat (c : Code) : ofNat? c.toNat = some c := by
  cases c <;> rfl

end Code

/-- Why an operation failed. -/
inductive Failure where
  /-- A cause of a known kind. -/
  | coded (code : Code) (reason : String)
  /-- A cause of no kind. -/
  | plain (reason : String)
  /-- A cause reported with context in front of it. -/
  | within (context : String) (inner : Failure)
  /-- A columnar file that could not be read; no detail is kept. -/
  | unreadable
  deriving DecidableEq, Repr

namespace Failure

/-- The kind of the innermost kinded cause. -/
def code? : Failure → Option Code
  | .coded c _ => some c
  | .plain _ => none
  | .within _ inner => inner.code?
  | .unreadable => some .malformedPayload

/-- The name of the kind, or `Error` for a cause of no kind. -/
def kindName (f : Failure) : String :=
  match f.code? with
  | some c => c.name
  | none => "Error"

/-- The text of the failure; `none` when it keeps no detail. -/
def message? : Failure → Option String
  | .coded c reason => some s!"{c.name}: {reason}"
  | .plain reason => some reason
  | .within context inner => inner.message?.map fun m => s!"{context}: {m}"
  | .unreadable => none

/-- Puts context in front of the failure of an operation. -/
def wrap {α : Type} (context : String) : Except Failure α → Except Failure α
  | .ok a => .ok a
  | .error f => .error (.within context f)

/-- Whether `errors.Is` matches a failure of kind number `n`, behind any context, against the
target: a failure of a kind matches every target whose chain holds a failure of the same kind,
whatever the reasons, and no other. A target of no kind is a fresh error, equal only to itself. -/
def matchedBy (target : Failure) (n : Int) : Bool :=
  match target.code? with
  | some c => n == c.toNat
  | none => false

@[simp] theorem code?_within (c : String) (f : Failure) : (within c f).code? = f.code? := rfl

@[simp] theorem wrap_ok {α : Type} (c : String) (a : α) : wrap c (.ok a) = .ok a := rfl

end Failure

end MarketData
