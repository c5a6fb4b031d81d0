import MarketData.Text.Bytes

/-!
Base64 text (RFC 4648 §4), padded.

Decoding skips carriage returns and line feeds, then reads groups of four characters of the
standard alphabet; only the last group may end in one or two `=`. Bits left over in the last
character of a padded group are ignored.
-/

namespace MarketData.Base64

/-- The value of a character of the standard alphabet. -/
def value? (c : Char) : Option Nat :=
  if 'A' ≤ c ∧ c ≤ 'Z' then some (c.toNat - 'A'.toNat)
  else if 'a' ≤ c ∧ c ≤ 'z' then some (c.toNat - 'a'.toNat + 26)
  else if '0' ≤ c ∧ c ≤ '9' then some (c.toNat - '0'.toNat + 52)
  else if c = '+' then some 62
  else if c = '/' then some 63
  else none

/-- The bytes of the groups of four characters, the last one possibly padded. -/
def groups : List Char → Option Bytes
  | [] => some []
  | [a, b, '=', '='] => do
    let n := 64 * (← value? a) + (← value? b)
    pure [(n / 16).toUInt8]
  | [a, b, c, '='] => do
    let n := (64 * (← value? a) + (← value? b)) * 64 + (← value? c)
    pure [(n / 1024).toUInt8, (n / 4 % 256).toUInt8]
  | a :: b :: c :: d :: rest => do
    let n := ((64 * (← value? a) + (← value? b)) * 64 + (← value? c)) * 64 + (← value? d)
    let tail ← groups rest
    pure ((n / 65536).toUInt8 :: (n / 256 % 256).toUInt8 :: (n % 256).toUInt8 :: tail)
  | _ => none

/-- The bytes that padded base64 text stands for, if it is well formed. -/
def decode? (text : String) : Option Bytes :=
  groups (text.toList.filter fun c => c ≠ '\r' ∧ c ≠ '\n')

example : decode? "aGk=" = some [0x68, 0x69] := by decide +kernel

end MarketData.Base64
