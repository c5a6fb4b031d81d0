import MarketData.Schema.Table
import MarketData.Text.Quoted

/-!
Well-formed field tables.

A table is well formed when it has a name and a known generation, and its fields, in order,
each have a number other than 0, larger than the number before it and not reserved, a name
not used by an earlier field, and a known kind. A `void` field must be the absent arm of a
union, and the arms of a union pair up: the absent arm carries the name `absentArmName` gives
and is followed by the payload arm of the same union, with the next number and a kind other than
`void`; a payload arm follows the absent arm of its union. A catalog is well formed when its
tables are and no two share a name.

The checks run in the order above and the first that fails is reported; for a catalog, a name
already seen is reported before the table's own problems.
-/

namespace MarketData.Schema

/-- Why a table or catalog is not well formed. Each problem names the table, and the field
where there is one. -/
inductive Problem where
  /-- A table without a name. -/
  | unnamed
  /-- A generation that is neither current nor legacy. -/
  | unknownGeneration (table generation : String)
  /-- A field numbered 0. -/
  | idZero (table field : String)
  /-- A number not larger than the one before it. -/
  | notAscending (table field : String) (id : UInt32)
  /-- A number that is reserved. -/
  | reservedId (table field : String) (id : UInt32)
  /-- A name given twice. -/
  | duplicateField (table field : String)
  /-- A kind that is not known. -/
  | unknownKind (table field kind : String)
  /-- A `void` field outside any union. -/
  | voidOutsideUnion (table field : String)
  /-- An absent arm with another name than its union asks for. -/
  | misnamedAbsentArm (table field union : String)
  /-- An absent arm at the end of the table. -/
  | noPayloadArm (table field union : String)
  /-- An absent arm not followed by its payload arm numbered `id`. -/
  | misplacedPayloadArm (table field union : String) (id : UInt32)
  /-- A payload arm not preceded by its absent arm. -/
  | noAbsentArm (table field union : String)
  /-- Two tables of one name. -/
  | duplicateTable (table : String)
  deriving DecidableEq, Repr

/-- The text of a problem. -/
def Problem.message : Problem → String
  | .unnamed => "schema: entity without a name"
  | .unknownGeneration t g => s!"schema: {t}: unknown generation {quoteText g}"
  | .idZero t f => s!"schema: {t}.{f}: field id 0 is not assignable"
  | .notAscending t f id => s!"schema: {t}.{f}: id {id} does not ascend"
  | .reservedId t f id => s!"schema: {t}.{f}: id {id} is reserved"
  | .duplicateField t f => s!"schema: {t}: duplicate field name {quoteText f}"
  | .unknownKind t f k => s!"schema: {t}.{f}: unknown kind {quoteText k}"
  | .voidOutsideUnion t f => s!"schema: {t}.{f}: void field outside a union"
  | .misnamedAbsentArm t f u =>
    s!"schema: {t}.{f}: absent arm of {quoteText u} must be named {Utf8.toStringLossy (absentArmName (Bytes.ofString u))}"
  | .noPayloadArm t f u => s!"schema: {t}.{f}: union {quoteText u} has no payload arm"
  | .misplacedPayloadArm t f u id => s!"schema: {t}.{f}: payload arm of {quoteText u} must follow as id {id}"
  | .noAbsentArm t f u => s!"schema: {t}.{f}: union {quoteText u} has no absent arm"
  | .duplicateTable t => s!"schema: duplicate entity {quoteText t}"

namespace Table

/-- Checks the arm `f` of a union, given the fields just before and after it. -/
def checkArm (t : Table) (f : Field) (before after : Option Field) : Except Problem Unit :=
  if f.isVoid then
    if Bytes.ofString f.name ≠ absentArmName (Bytes.ofString f.union) then
      .error (.misnamedAbsentArm t.name f.name f.union)
    else
      match after with
      | none => .error (.noPayloadArm t.name f.name f.union)
      | some g =>
        if g.union ≠ f.union || g.id ≠ f.id + 1 || g.isVoid then
          .error (.misplacedPayloadArm t.name f.name f.union (f.id + 1))
        else .ok ()
  else
    match before with
    | some p => if p.union = f.union && p.isVoid then .ok () else .error (.noAbsentArm t.name f.name f.union)
    | none => .error (.noAbsentArm t.name f.name f.union)

/-- Checks the fields from some point on, given the number and the field before them and the
names already used. -/
def checkFields (t : Table) : UInt32 → List String → Option Field → List Field → Except Problem Unit
  | _, _, _, [] => .ok ()
  | previous, names, before, f :: rest => do
    if f.id = 0 then throw (.idZero t.name f.name)
    if f.id ≤ previous then throw (.notAscending t.name f.name f.id)
    if t.isReserved f.id then throw (.reservedId t.name f.name f.id)
    if names.contains f.name then throw (.duplicateField t.name f.name)
    if (Kind.ofName? f.kind).isNone then throw (.unknownKind t.name f.name f.kind)
    if f.union = "" then
      if f.isVoid then throw (.voidOutsideUnion t.name f.name)
    else
      t.checkArm f before rest.head?
    t.checkFields f.id (f.name :: names) (some f) rest

/-- Checks that a table is well formed. -/
def validate (t : Table) : Except Problem Unit := do
  if t.name = "" then throw .unnamed
  if (Generation.ofName? t.generation).isNone then throw (.unknownGeneration t.name t.generation)
  t.checkFields 0 [] none t.fields

end Table

/-- Checks the tables from some point on, given the names already seen. -/
def checkTables : List String → List Table → Except Problem Unit
  | _, [] => .ok ()
  | seen, t :: rest => do
    if seen.contains t.name then throw (.duplicateTable t.name)
    t.validate
    checkTables (t.name :: seen) rest

/-- Checks that a catalog is well formed. -/
def Catalog.validate (c : Catalog) : Except Problem Unit := checkTables [] c.tables

theorem validate_unnamed (g : String) (fs : List Field) (r : List UInt32) :
    Table.validate ⟨"", g, fs, r⟩ = .error .unnamed := rfl

end MarketData.Schema
