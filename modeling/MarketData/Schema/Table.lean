import MarketData.Text.Utf8

/-!
Field tables.

Every entity has a table of fields. A field has a number that is assigned once and never
reused: the same number is the protobuf field number, the borsh position and the parquet
column position. A field that is removed leaves its number in the table's reserved list.

An optional field is a union of two arms that follow each other: the absent arm, of kind
`void` and named `no` followed by the union's name with its first byte in upper case, and the
payload arm right after it with the next number.

Kinds and generations are kept as they are written, so that a table with an unknown kind can
still be held, shown and reported; `Kind.ofName?` and `Generation.ofName?` say which names are
known.

Main queries: a field by number (`Table.field?`) or by name (`Table.lookup?`), each giving the
first match; the largest number ever given out (`Table.maxId`); the two arms of a union
(`Table.union?`).
-/

namespace MarketData.Schema

/-- The kinds of field. -/
inductive Kind where
  /-- Text. -/
  | text
  /-- A signed 64-bit integer. -/
  | int64
  /-- An unsigned 64-bit integer. -/
  | uint64
  /-- A double. -/
  | float64
  /-- An unsigned 128-bit integer. -/
  | uint128
  /-- An enumeration, named by the field's type. -/
  | enum
  /-- A nested structure, named by the field's type. -/
  | struct
  /-- A list of the field's type. -/
  | list
  /-- No value: the absent arm of a union. -/
  | void
  deriving DecidableEq, Repr

/-- The name of a kind. -/
def Kind.name : Kind → String
  | .text => "text"
  | .int64 => "int64"
  | .uint64 => "uint64"
  | .float64 => "float64"
  | .uint128 => "uint128"
  | .enum => "enum"
  | .struct => "struct"
  | .list => "list"
  | .void => "void"

/-- Every kind. -/
def Kind.all : List Kind := [.text, .int64, .uint64, .float64, .uint128, .enum, .struct, .list, .void]

/-- The kind with a name, if any. -/
def Kind.ofName? (name : String) : Option Kind := Kind.all.find? (·.name == name)

/-- The generations of tables: the current one, and the frozen legacy one. -/
inductive Generation where
  /-- Tables that may still grow. -/
  | current
  /-- Tables that accept no change. -/
  | legacy
  deriving DecidableEq, Repr

/-- The name of a generation. -/
def Generation.name : Generation → String
  | .current => "current"
  | .legacy => "legacy"

/-- The generation with a name, if any. -/
def Generation.ofName? (name : String) : Option Generation :=
  [Generation.current, .legacy].find? (·.name == name)

/-- One row of a field table. `type` names the enumeration, structure or list element of those
kinds; `union` names the optional field that an arm belongs to. -/
structure Field where
  /-- The field number; 0 is never given out. -/
  id : UInt32
  /-- The field's name. -/
  name : String
  /-- The kind, as written. -/
  kind : String
  /-- The type named by the kind, or empty. -/
  type : String
  /-- The union of an arm, or empty. -/
  union : String
  deriving DecidableEq, Repr

namespace Field

/-- The field with every part zero or empty, which queries give when nothing matches. -/
def zero : Field := ⟨0, "", "", "", ""⟩

/-- Whether a field is of kind `void`. -/
def isVoid (f : Field) : Bool := f.kind == Kind.void.name

/-- The short form of a field: number, name and kind, with the type in angle brackets when
there is one, as in `3:chain(enum<Chain>)`. -/
def render (f : Field) : String :=
  if f.type = "" then s!"{f.id}:{f.name}({f.kind})"
  else s!"{f.id}:{f.name}({f.kind}<{f.type}>)"

example : render ⟨3, "chain", "enum", "Chain", "chain"⟩ = "3:chain(enum<Chain>)" := by
  decide +kernel

end Field

/-- The field table of one entity. -/
structure Table where
  /-- The entity's name. -/
  name : String
  /-- The generation, as written. -/
  generation : String
  /-- The fields, in table order. -/
  fields : List Field
  /-- The numbers of removed fields. -/
  reserved : List UInt32
  deriving DecidableEq, Repr

/-- The two arms of the union named `union` among some fields: the first `void` field of the
union that has a field after it, and that field. -/
def unionArms (union : String) : List Field → Option (Field × Field)
  | f :: g :: rest => if f.union == union && f.isVoid then some (f, g) else unionArms union (g :: rest)
  | _ => none

namespace Table

/-- The first field with a number. -/
def field? (t : Table) (id : UInt32) : Option Field := t.fields.find? (·.id == id)

/-- The first field with a name. -/
def lookup? (t : Table) (name : String) : Option Field := t.fields.find? (·.name == name)

/-- The largest number among the fields and the reserved numbers, or 0. -/
def maxId (t : Table) : UInt32 :=
  (t.fields.map (·.id) ++ t.reserved).foldl max 0

/-- The absent and payload arms of a union. -/
def union? (t : Table) (union : String) : Option (Field × Field) := unionArms union t.fields

/-- Whether a number is reserved. -/
def isReserved (t : Table) (id : UInt32) : Bool := t.reserved.contains id

end Table

/-- The name of the absent arm of a union: `no` followed by the union's name with its first
byte in upper case. A first byte that does not start ASCII text is no character of its own and
becomes the replacement character. -/
def absentArmName (union : Bytes) : Bytes :=
  Bytes.ofString "no" ++
    match union with
    | [] => []
    | b :: rest =>
      (if b < 0x80 then [if 0x61 ≤ b && b ≤ 0x7A then b - 0x20 else b]
       else Utf8.encodeChar Utf8.replacement) ++ rest

/-- The tables of every entity at one point in history. -/
structure Catalog where
  /-- The tables, in catalog order. -/
  tables : List Table
  deriving DecidableEq, Repr

/-- The first table with a name. -/
def Catalog.table? (c : Catalog) (name : String) : Option Table := c.tables.find? (·.name == name)

theorem absentArmName_ascii : absentArmName (Bytes.ofString "chain") = Bytes.ofString "noChain" := by
  decide +kernel

end MarketData.Schema
