import MarketData.Text.Bytes

/-!
Integer numerals.

A numeral is an optional sign followed by one or more digits of its base and nothing else: no
blank, no digit separator, no base prefix. The readers here take bytes, since the text they read
comes from outside, and refuse anything else with `none`.
-/

namespace MarketData.Numeral

/-- The value of a digit byte in bases up to 36 (letters of either case count from ten); 36 for
a byte that is no digit. -/
def digitValue (b : UInt8) : Nat :=
  if 0x30 ≤ b && b ≤ 0x39 then b.toNat - 0x30
  else if 0x61 ≤ b && b ≤ 0x7A then b.toNat - 0x61 + 10
  else if 0x41 ≤ b && b ≤ 0x5A then b.toNat - 0x41 + 10
  else 36

/-- The value of digits in a base, most significant first; `none` for no digits or a byte that
is no digit of the base. -/
def readDigits? (base : Nat) (b : Bytes) : Option Nat :=
  if b.isEmpty then none
  else b.foldlM (fun acc x => if digitValue x < base then some (acc * base + digitValue x) else none) 0

/-- A signed numeral in a base. -/
def readSigned? (base : Nat) : Bytes → Option Int
  | 0x2D :: rest => (readDigits? base rest).map fun n => -(n : Int)
  | 0x2B :: rest => (readDigits? base rest).map fun n => (n : Int)
  | b => (readDigits? base b).map fun n => (n : Int)

/-- An unsigned decimal numeral below 2^64. -/
def readWord? (b : Bytes) : Option UInt64 :=
  match readDigits? 10 b with
  | some n => if n < Nat.pow 2 64 then some n.toUInt64 else none
  | none => none

/-- A signed decimal numeral within the range of a 64-bit signed integer. -/
def readInt64? (b : Bytes) : Option Int :=
  match readSigned? 10 b with
  | some n => if -Int.pow 2 63 ≤ n && n < Int.pow 2 63 then some n else none
  | none => none

theorem readDigits?_nil (base : Nat) : readDigits? base [] = none := rfl

end MarketData.Numeral
