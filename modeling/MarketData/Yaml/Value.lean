import MarketData.Number.Float

/-!
Values of no fixed type.

A YAML node decoded without a type in mind becomes a dynamic value: null, a boolean, a signed
or unsigned 64-bit integer, a binary64 float, text, a list, or a mapping. A mapping whose keys
are all text is a text mapping; any other mapping has dynamic keys, which are never lists or
mappings.

Keys of a mapping are told apart as values of their kind: an integer and an unsigned integer
are different keys even with the same value, and NaN is a key unequal to every key, itself
included.
-/

namespace MarketData.Yaml

/-- A value of no fixed type. -/
inductive Value where
  /-- Nothing. -/
  | null
  /-- A boolean. -/
  | bool (b : Bool)
  /-- A signed 64-bit integer. -/
  | int (n : Int)
  /-- An unsigned integer too large to be signed. -/
  | uint (n : Nat)
  /-- A binary64 float. -/
  | float (x : F64)
  /-- Text. -/
  | text (s : String)
  /-- A list. -/
  | list (items : List Value)
  /-- A mapping from text. -/
  | textMap (entries : List (String × Value))
  /-- A mapping from dynamic keys. -/
  | anyMap (entries : List (Value × Value))
  deriving Inhabited

/-- Whether two floats are equal as numbers: NaN equals nothing, and the zeros are equal. -/
def F64.sameNumber (x y : F64) : Bool :=
  !x.isNaN && !y.isNaN && (x == y || (x.isZero && y.isZero))

/-- Whether two keys are the same key: of the same kind and equal. -/
def Value.sameKey : Value → Value → Bool
  | .null, .null => true
  | .bool a, .bool b => a == b
  | .int a, .int b => a == b
  | .uint a, .uint b => a == b
  | .float a, .float b => F64.sameNumber a b
  | .text a, .text b => a == b
  | _, _ => false

/-- Whether a value is a list or a mapping, which cannot be a key. -/
def Value.isCollection : Value → Bool
  | .list _ | .textMap _ | .anyMap _ => true
  | _ => false

/-- Sets a key of a text mapping, replacing the entry of an equal key. -/
def setText (entries : List (String × Value)) (k : String) (v : Value) : List (String × Value) :=
  if entries.any (·.1 == k) then entries.map fun e => if e.1 == k then (k, v) else e
  else entries ++ [(k, v)]

/-- Sets a key of a mapping with dynamic keys, replacing the entry of the same key. -/
def setAny (entries : List (Value × Value)) (k v : Value) : List (Value × Value) :=
  if entries.any (·.1.sameKey k) then entries.map fun e => if e.1.sameKey k then (k, v) else e
  else entries ++ [(k, v)]

end MarketData.Yaml
