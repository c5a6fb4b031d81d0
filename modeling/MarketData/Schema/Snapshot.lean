import MarketData.Schema.Live
import MarketData.Schema.Validate
import MarketData.Sorting.Stable
import MarketData.Failure
import MarketData.Yaml.Decode
import MarketData.Yaml.Emit

/-!
Snapshots of field numbers.

A snapshot is a catalog written as YAML, with its tables sorted: current tables before legacy
ones, each generation by name, and tables that compare equal kept in their order. A field's
type and union are written only when set, and reserved numbers only when there are some.

Loading a snapshot reads the first YAML document into a catalog, then checks it as a catalog
is checked. Unknown keys are ignored; a key missing leaves its field empty.
-/

namespace MarketData.Schema

open Yaml

/-- The order of tables in a snapshot: a current table before any other generation, then by
name within a generation. -/
def Table.before (a b : Table) : Bool :=
  if a.generation ≠ b.generation then a.generation = Generation.current.name else a.name < b.name

/-- A table with nothing in it. -/
def Table.zero : Table := ⟨"", "", [], []⟩

instance : Inhabited Table := ⟨Table.zero⟩

/-- The catalog with its tables in snapshot order. -/
def Catalog.sorted (c : Catalog) : Catalog :=
  ⟨(Sorting.stableSort Table.before c.tables.toArray).toList⟩

/-- The published catalog: the live tables in snapshot order. -/
def published : Catalog := live.sorted

/-- Writes a field as an entry of a table's field list. -/
def Field.write (sh : Sheet) (f : Field) : Sheet :=
  let sh := (sh.entryKey 6 "id").word (toString f.id)
  let sh := (sh.key 8 "name").text 10 f.name
  let sh := (sh.key 8 "kind").text 10 f.kind
  let sh := if f.type.isEmpty then sh else (sh.key 8 "type").text 10 f.type
  if f.union.isEmpty then sh else (sh.key 8 "union").text 10 f.union

/-- Writes a table as an entry of the catalog's list. -/
def Table.write (sh : Sheet) (t : Table) : Sheet :=
  let sh := (sh.entryKey 2 "name").text 6 t.name
  let sh := (sh.key 4 "generation").text 6 t.generation
  let sh := sh.key 4 "fields"
  let sh := if t.fields.isEmpty then sh.word "[]" else t.fields.foldl Field.write sh
  if t.reserved.isEmpty then sh
  else t.reserved.foldl (fun sh id => sh.entryWord 6 (toString id)) (sh.key 4 "reserved")

/-- The snapshot of a catalog. -/
def Catalog.snapshot (c : Catalog) : String :=
  let c := c.sorted
  if c.tables.isEmpty then "entities: []\n"
  else (c.tables.foldl Table.write (Sheet.empty.key 0 "entities")).finish

/-- Reads a field. -/
def Field.decoder : Decoder Field := Decoder.record [
  .of "id" Decoder.word (·.id) fun f v => { f with id := v },
  .of "name" Decoder.text (·.name) fun f v => { f with name := v },
  .of "kind" Decoder.text (·.kind) fun f v => { f with kind := v },
  .of "type" Decoder.text (·.type) fun f v => { f with type := v },
  .of "union" Decoder.text (·.union) fun f v => { f with union := v }]

/-- Reads a table. -/
def Table.decoder : Decoder Table := Decoder.record [
  .of "name" Decoder.text (·.name) fun t v => { t with name := v },
  .of "generation" Decoder.text (·.generation) fun t v => { t with generation := v },
  .of "fields" (Decoder.list Field.decoder Field.zero) (·.fields) fun t v => { t with fields := v },
  .of "reserved" (Decoder.list Decoder.word 0) (·.reserved) fun t v => { t with reserved := v }]

/-- Reads a catalog. -/
def Catalog.decoder : Decoder Catalog := Decoder.record [
  .of "entities" (Decoder.list Table.decoder Table.zero) (·.tables) fun _ v => ⟨v⟩]

/-- Loads a snapshot: the first document of the text as a catalog, which must be valid. -/
def Catalog.load (text : String) : Except Failure Catalog :=
  match decodeFirst Catalog.decoder text ⟨[]⟩ with
  | .error _ => .error (.plain "failed to parse field id snapshot")
  | .ok none => .error (.plain "failed to parse field id snapshot: EOF")
  | .ok (some c) =>
    match c.validate with
    | .error p => .error (.plain ("invalid field id snapshot: " ++ p.message))
    | .ok () => .ok c

end MarketData.Schema
