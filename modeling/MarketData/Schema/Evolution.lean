import MarketData.Schema.Table
import MarketData.Text.Quoted

/-!
Evolution of field numbers.

Published field numbers are a contract: a later catalog may only add numbers. A table that was
published must still exist with its generation. A field that disappears must have its number
reserved; a field keeps its name, kind, type and union; a reserved number stays reserved and is
not given to a new field; a name keeps its number. Legacy tables accept no field added or
removed at all.

`checkEvolution prev cur` lists every breach of these rules, table by table in the order of
`prev`, and within a table: the generation, then the old fields, then the old reserved numbers,
then the new fields.
-/

namespace MarketData.Schema

/-- One way a catalog breaks the numbers published before it. -/
inductive Breach where
  /-- The table is gone. -/
  | tableRemoved
  /-- The table changed generation. -/
  | generationChanged (before after : String)
  /-- A field is gone and its number is not reserved. -/
  | removedUnreserved (field : String)
  /-- A field is gone from a legacy table. -/
  | removedFromLegacy (field : String)
  /-- A number now carries another name. -/
  | renamed (before after : String)
  /-- A field changed kind or type. -/
  | retyped (field : String) (before after : Field)
  /-- A field moved to another union. -/
  | moved (field : String) (before after : String)
  /-- A reserved number is a field again. -/
  | reservedReused (field : String)
  /-- A reserved number is neither a field nor reserved. -/
  | reservedDropped
  /-- A name now carries another number. -/
  | renumbered (field : String) (before : UInt32)
  /-- A field was added to a legacy table. -/
  | addedToLegacy (field : String)
  deriving DecidableEq, Repr

/-- The text of a breach. -/
def Breach.reason : Breach → String
  | .tableRemoved => "entity removed"
  | .generationChanged a b => s!"generation changed from {a} to {b}"
  | .removedUnreserved f => s!"{f} removed without reserving its id"
  | .removedFromLegacy f => s!"{f} removed from a frozen legacy table"
  | .renamed a b => s!"renamed from {a} to {b}"
  | .retyped f a b => s!"{f} changed type from {a.render} to {b.render}"
  | .moved f a b => s!"{f} moved from union {quoteText a} to {quoteText b}"
  | .reservedReused f => s!"reserved id reused by {f}"
  | .reservedDropped => "reserved id no longer reserved"
  | .renumbered f id => s!"{f} renumbered from {id}"
  | .addedToLegacy f => s!"{f} added to a frozen legacy table"

/-- A breach in a table, at a field number, or at 0 for the table as a whole. -/
structure Violation where
  /-- The table's name. -/
  table : String
  /-- The field number, or 0. -/
  id : UInt32
  /-- What is broken. -/
  breach : Breach
  deriving DecidableEq, Repr

/-- The text of a violation: the table, the field number unless it is 0, and the reason. -/
def Violation.text (v : Violation) : String :=
  if v.id = 0 then s!"{v.table}: {v.breach.reason}"
  else s!"{v.table} field {v.id}: {v.breach.reason}"

/-- The breaches of a field of the old table. -/
def fieldBreaches (old now : Table) (f : Field) : List (UInt32 × Breach) :=
  match now.field? f.id with
  | none =>
    (if now.isReserved f.id then [] else [(f.id, .removedUnreserved f.name)]) ++
    (if old.generation = Generation.legacy.name then [(f.id, .removedFromLegacy f.name)] else [])
  | some g =>
    (if g.name ≠ f.name then [(f.id, .renamed f.name g.name)] else []) ++
    (if g.kind ≠ f.kind || g.type ≠ f.type then [(f.id, .retyped f.name f g)] else []) ++
    (if g.union ≠ f.union then [(f.id, .moved f.name f.union g.union)] else [])

/-- The breach of a number reserved in the old table, if any. -/
def reservedBreaches (now : Table) (id : UInt32) : List (UInt32 × Breach) :=
  match now.field? id with
  | some f => [(id, .reservedReused f.name)]
  | none => if now.isReserved id then [] else [(id, .reservedDropped)]

/-- The breaches of a field of the new table. -/
def newFieldBreaches (old : Table) (g : Field) : List (UInt32 × Breach) :=
  (match old.lookup? g.name with
    | some f => if f.id ≠ g.id then [(g.id, .renumbered g.name f.id)] else []
    | none => []) ++
  (if (old.field? g.id).isNone && old.generation = Generation.legacy.name then
    [(g.id, .addedToLegacy g.name)] else [])

/-- Every breach of a table's published numbers by its new version, in order. -/
def Table.breaches (old now : Table) : List Violation :=
  let found :=
    (if old.generation ≠ now.generation then [((0 : UInt32), Breach.generationChanged old.generation now.generation)]
     else []) ++
    old.fields.flatMap (fieldBreaches old now) ++
    old.reserved.flatMap (reservedBreaches now) ++
    now.fields.flatMap (newFieldBreaches old)
  found.map fun (id, b) => ⟨old.name, id, b⟩

/-- Every way `cur` breaks the numbers published in `prev`, in order. -/
def checkEvolution (prev cur : Catalog) : List Violation :=
  prev.tables.flatMap fun old =>
    match cur.table? old.name with
    | none => [⟨old.name, 0, .tableRemoved⟩]
    | some now => old.breaches now

theorem checkEvolution_nil (prev : Catalog) :
    checkEvolution prev ⟨[]⟩ = prev.tables.map fun t => ⟨t.name, 0, .tableRemoved⟩ := by
  simp [checkEvolution, Catalog.table?, List.flatMap]
  induction prev.tables with
  | nil => rfl
  | cons t ts ih => simp [ih]

end MarketData.Schema
