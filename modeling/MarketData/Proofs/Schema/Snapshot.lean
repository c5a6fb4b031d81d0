import MarketData.Proofs.Sorting.Ordered
import MarketData.Proofs.Schema.Evolution

/-!
# Snapshots load back sorted

Snapshot order compares generations first, a current table before a legacy one, and names
within a generation. On tables that validate it is the lexicographic order of rank and name
(`Table.before_iff_key`), so it is a strict weak order, and in a valid catalog no two tables are
equivalent since no two share a name. The stable sort therefore puts the tables of a valid
catalog in strictly ascending snapshot order (`Catalog.sorted_ascending`), sorting it again
changes nothing (`Catalog.sorted_sorted`), and the sorted catalog validates, since validation
looks at the set of names and at each table alone (`Catalog.validate_perm`).

Loading a snapshot reads its YAML and validates the catalog read. Whether the reader gives back
what the writer wrote is a matter of the YAML layer; granted that, loading the snapshot of a
valid catalog gives the sorted catalog.
-/

namespace MarketData.Schema

open Yaml Sorting

/-- The place of a table's generation in snapshot order: current tables come first. -/
def Table.rank (t : Table) : Nat := if t.generation = Generation.current.name then 0 else 1

/-- Where a table stands in snapshot order: by rank, then by name. -/
def Table.orderKey (t : Table) : Lex (Nat × String) := toLex (t.rank, t.name)

theorem Table.validate_generation {t : Table} (valid : t.validate = .ok ()) :
    t.generation = Generation.current.name ∨ t.generation = Generation.legacy.name := by
  unfold Table.validate at valid
  simp [ite_eq_iff, throw_bind] at valid
  obtain ⟨g, found⟩ := Option.ne_none_iff_exists'.1 valid.2.1
  have named : g.name = t.generation := by simpa using List.find?_some found
  cases g
  · exact .inl named.symm
  · exact .inr named.symm

/-- On tables that validate, snapshot order is the order of rank, then name. -/
theorem Table.before_iff_key {s t : Table} (hs : s.validate = .ok ()) (ht : t.validate = .ok ()) :
    Table.before s t = true ↔ s.orderKey < t.orderKey := by
  rcases Table.validate_generation hs with gs | gs <;> rcases Table.validate_generation ht with gt | gt <;>
    simp [Table.before, Table.orderKey, Table.rank, gs, gt, Generation.name, Prod.Lex.toLex_lt_toLex]

theorem Table.before_weakOrder : WeakOrderOn Table.before (fun t => t.validate = .ok ()) :=
  WeakOrderOn.of_key Table.orderKey fun hs ht => Table.before_iff_key hs ht

theorem Table.precedes_iff {s t : Table} (hs : s.validate = .ok ()) (ht : t.validate = .ok ()) :
    Precedes Table.before s t ↔ s.orderKey ≤ t.orderKey :=
  precedes_iff_key Table.orderKey (fun hs ht => Table.before_iff_key hs ht) hs ht

theorem Table.name_eq_of_orderKey_eq {s t : Table} (same : s.orderKey = t.orderKey) : s.name = t.name :=
  congrArg (fun k => (ofLex k).2) same

theorem checkTables_of : ∀ {ts : List Table} {seen : List String}, (ts.map (·.name)).Nodup →
    (∀ t ∈ ts, t.name ∉ seen) → (∀ t ∈ ts, t.validate = .ok ()) → checkTables seen ts = .ok ()
  | [], _, _, _, _ => rfl
  | t :: rest, seen, distinct, unseen, valid => by
    have fresh : seen.contains t.name = false := by simpa using unseen t List.mem_cons_self
    obtain ⟨other, distinctRest⟩ := List.nodup_cons.1 distinct
    rw [checkTables, fresh, valid t List.mem_cons_self]
    refine checkTables_of distinctRest (fun u member named => ?_) fun u member => valid u (List.mem_cons_of_mem _ member)
    rcases List.mem_cons.1 named with same | earlier
    · exact other (List.mem_map.2 ⟨u, member, same⟩)
    · exact unseen u (List.mem_cons_of_mem _ member) earlier

/-- Validation does not depend on the order of the tables. -/
theorem Catalog.validate_perm {c c' : Catalog} (valid : c.validate = .ok ()) (reordered : c'.tables.Perm c.tables) :
    c'.validate = .ok () := by
  obtain ⟨distinct, -, validTables⟩ := checkTables_ok valid
  exact checkTables_of ((reordered.map _).nodup_iff.2 distinct) (fun _ _ => List.not_mem_nil)
    fun t member => validTables t (reordered.mem_iff.1 member)

theorem Catalog.sorted_perm (c : Catalog) : c.sorted.tables.Perm c.tables := by
  simpa [Catalog.sorted] using stableSort_perm Table.before c.tables.toArray

section Valid

variable {c : Catalog} (valid : c.validate = .ok ())
include valid

theorem Catalog.tables_validate : ∀ t ∈ c.tables, t.validate = .ok () :=
  (checkTables_ok valid).2.2

theorem Catalog.equivalent_eq : ∀ s ∈ c.tables, ∀ t ∈ c.tables,
    Precedes Table.before s t → Precedes Table.before t s → s = t := by
  intro s hs t ht st ts
  have vs := Catalog.tables_validate valid s hs
  have vt := Catalog.tables_validate valid t ht
  rw [Table.precedes_iff vs vt] at st
  rw [Table.precedes_iff vt vs] at ts
  exact List.inj_on_of_nodup_map (checkTables_ok valid).1 hs ht (Table.name_eq_of_orderKey_eq (le_antisymm st ts))

/-- The sorted tables of a valid catalog ascend strictly in snapshot order: current before legacy,
and by name within a generation. -/
theorem Catalog.sorted_ascending : c.sorted.tables.Pairwise fun s t => Table.before s t = true := by
  have ordered := stableSort_ordered Table.before_weakOrder c.tables.toArray (by simpa using Catalog.tables_validate valid)
  have distinct : c.sorted.tables.Pairwise fun s t => s.name ≠ t.name :=
    List.pairwise_map.1 (((Catalog.sorted_perm c).map _).nodup_iff.2 (checkTables_ok valid).1)
  refine (ordered.and distinct).imp_of_mem fun {s t} hs ht ⟨precedes, named⟩ => ?_
  have vs := Catalog.tables_validate valid s ((Catalog.sorted_perm c).mem_iff.1 hs)
  have vt := Catalog.tables_validate valid t ((Catalog.sorted_perm c).mem_iff.1 ht)
  rw [Table.precedes_iff vs vt] at precedes
  exact (Table.before_iff_key vs vt).2 (lt_of_le_of_ne precedes fun same => named (Table.name_eq_of_orderKey_eq same))

/-- Sorting a valid catalog twice sorts it once. -/
theorem Catalog.sorted_sorted : c.sorted.sorted = c.sorted := by
  have idem := stableSort_idem Table.before_weakOrder c.tables.toArray (by simpa using Catalog.tables_validate valid)
    (by simpa using Catalog.equivalent_eq valid)
  unfold Catalog.sorted
  simp only [Array.toArray_toList, idem]

end Valid

/-- The snapshot of a valid catalog loads back as the catalog in snapshot order, provided the YAML
reader gives back what the writer wrote: that catalog is valid, holds the same tables, ascends
strictly in snapshot order, and sorting it again changes nothing. -/
theorem snapshot_loads_sorted {c : Catalog} (valid : c.validate = .ok ())
    (inverts : decodeFirst Catalog.decoder c.snapshot ⟨[]⟩ = .ok (some c.sorted)) :
    Catalog.load c.snapshot = .ok c.sorted ∧ c.sorted.validate = .ok () ∧ c.sorted.tables.Perm c.tables ∧
      c.sorted.tables.Pairwise (fun s t => Table.before s t = true) ∧ c.sorted.sorted = c.sorted := by
  have sortedValid := Catalog.validate_perm valid (Catalog.sorted_perm c)
  refine ⟨?_, sortedValid, Catalog.sorted_perm c, Catalog.sorted_ascending valid, Catalog.sorted_sorted valid⟩
  rw [Catalog.load, inverts]
  simp only [sortedValid]

/-- A legacy table with a reserved number, listed before a current table with no fields. -/
def tradeFirst : Catalog :=
  ⟨[⟨"Trade", "legacy", [⟨1, "price", "float64", "", ""⟩], [2]⟩, ⟨"Book", "current", [], []⟩]⟩

theorem snapshot_loads_sorted_tradeFirst :
    tradeFirst.validate = .ok () ∧
      decodeFirst Catalog.decoder tradeFirst.snapshot ⟨[]⟩ = .ok (some tradeFirst.sorted) ∧
      Catalog.load tradeFirst.snapshot = .ok tradeFirst.sorted ∧ tradeFirst.sorted.validate = .ok () ∧
      tradeFirst.sorted.tables.Perm tradeFirst.tables ∧
      tradeFirst.sorted.tables.Pairwise (fun s t => Table.before s t = true) ∧
      tradeFirst.sorted.sorted = tradeFirst.sorted := by
  have valid : tradeFirst.validate = .ok () := by decide
  -- the YAML written for this catalog reads back as it, sorted
  have inverts : decodeFirst Catalog.decoder tradeFirst.snapshot ⟨[]⟩ = .ok (some tradeFirst.sorted) := by
    decide +kernel
  exact ⟨valid, inverts, snapshot_loads_sorted valid inverts⟩

end MarketData.Schema
