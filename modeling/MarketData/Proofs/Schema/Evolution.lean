import MarketData.Proofs.Except
import MarketData.Proofs.Sorting.Permutation
import MarketData.Schema.Evolution
import MarketData.Schema.Snapshot

/-!
# Evolution of field numbers between catalogs

`checkEvolution prev cur` lists every breach of the rules on published field numbers. An empty
list is a relation between the two versions of each table (`Table.Evolves`): the generation is
the same; every old field is still the first field of its number, or is gone with its number
reserved from a current table; every reserved number stays reserved and unused; a legacy table
gains no number; and a name that the old table gives to a field keeps that field's number.

Two laws follow.

* A well-formed catalog evolves legally into itself and into every reordering of its tables, its
  snapshot order included (`checkEvolution_reorder`). Validation is what makes this hold: every
  query returns its first match, and in a well-formed table the first field with a number, or
  with a name, is the field itself, while a reserved number belongs to no field.
* Evolution composes, but for one rule. A name keeps its number only as far as the old table
  still holds a field of that name; a name whose field was removed, its number reserved, may come
  back under a new number in the next step. Checked against the catalog before the removal, that
  return is a renumbering. `checkEvolution_compose` says that the two-step check reports exactly
  these returns and nothing else (`retired_name_returns_renumbered` is one).
-/

namespace MarketData.Schema

theorem throw_bind {ε α β : Type} (e : ε) (k : α → Except ε β) :
    (throw e >>= k : Except ε β) = .error e := rfl

/-! ## Keyed lists -/

theorem find?_key {β κ : Type} [BEq κ] [LawfulBEq κ] (key : β → κ) {l : List β}
    (distinct : (l.map key).Nodup) {x : β} (member : x ∈ l) :
    l.find? (fun y => key y == key x) = some x := by
  cases found : l.find? (fun y => key y == key x) with
  | none =>
    rw [List.find?_eq_none] at found
    exact absurd (beq_self_eq_true (key x)) (found x member)
  | some y =>
    have within := List.mem_of_find?_eq_some found
    have same : key y = key x := by simpa using List.find?_some found
    rw [List.inj_on_of_nodup_map distinct within member same]

theorem nodup_map_cons {β κ : Type} (key : β → κ) {x : β} {rest : List β} {seen : List κ}
    (distinct : (rest.map key).Nodup) (unseen : ∀ u ∈ rest, key u ∉ key x :: seen) :
    ((x :: rest).map key).Nodup := by
  refine List.nodup_cons.2 ⟨fun member => ?_, distinct⟩
  obtain ⟨u, within, named⟩ := List.mem_map.1 member
  exact unseen u within (named ▸ List.mem_cons_self)

/-! ## Well-formed tables -/

/-- What validation guarantees of a table: its numbers ascend strictly, its names are distinct,
and no field has a reserved number. -/
structure Table.WellFormed (t : Table) : Prop where
  /-- Numbers ascend strictly. -/
  ascending : (t.fields.map (·.id)).Pairwise (· < ·)
  /-- No name is given twice. -/
  distinctNames : (t.fields.map (·.name)).Nodup
  /-- A reserved number is no field's. -/
  unreserved : ∀ f ∈ t.fields, f.id ∉ t.reserved

/-- What validation guarantees of a catalog: distinct table names and well-formed tables. -/
structure Catalog.WellFormed (c : Catalog) : Prop where
  /-- No two tables share a name. -/
  distinctNames : (c.tables.map (·.name)).Nodup
  /-- Every table is well formed. -/
  tables : ∀ t ∈ c.tables, t.WellFormed

namespace Table

variable {t : Table}

/-- A field that passes its checks has a number above the one before it, not reserved, and a
name not used before; the check goes on with the remaining fields. -/
theorem checkFields_cons_ok {previous : UInt32} {names : List String} {before : Option Field}
    {f : Field} {rest : List Field} (ok : t.checkFields previous names before (f :: rest) = .ok ()) :
    previous < f.id ∧ f.id ∉ t.reserved ∧ f.name ∉ names ∧
      t.checkFields f.id (f.name :: names) (some f) rest = .ok () := by
  rw [checkFields] at ok
  -- each check that fails throws, so each of them passed
  have ascends : ¬f.id ≤ previous := fun low => by simp [low, ite_eq_iff, throw_bind] at ok
  have unreserved : ¬t.isReserved f.id = true := fun reserved => by
    simp [reserved, ite_eq_iff, throw_bind] at ok
  have fresh : f.name ∉ names := fun used => by simp [used, ite_eq_iff, throw_bind] at ok
  refine ⟨UInt32.not_le.1 ascends, by simpa [isReserved] using unreserved, fresh, ?_⟩
  simp [ascends, unreserved, fresh, ite_eq_iff, bind_eq_ok, throw_bind] at ok
  rcases ok with ⟨-, -, ⟨-, -, rest⟩ | ⟨-, -, rest⟩⟩ <;> exact rest

/-- The checks of the fields from some point on, run to the end, give their numbers in strictly
ascending order above `previous`, distinct names none of which was used before, and no reserved
number. -/
theorem checkFields_ok :
    ∀ {fs : List Field} {previous : UInt32} {names : List String} {before : Option Field},
      t.checkFields previous names before fs = .ok () →
        (previous :: fs.map (·.id)).Pairwise (· < ·) ∧ (fs.map (·.name)).Nodup ∧
          (∀ f ∈ fs, f.name ∉ names) ∧ ∀ f ∈ fs, f.id ∉ t.reserved
  | [], _, _, _, _ => by simp
  | f :: rest, previous, names, before, ok => by
    obtain ⟨ascends, unreserved, fresh, ok⟩ := checkFields_cons_ok ok
    obtain ⟨ascending, distinct, unused, unreservedRest⟩ := checkFields_ok ok
    have above := (List.pairwise_cons.1 ascending).1
    refine ⟨List.pairwise_cons.2 ⟨?_, ascending⟩, ?_, ?_, ?_⟩
    · intro id member
      rcases List.mem_cons.1 member with rfl | later
      · exact ascends
      · exact UInt32.lt_trans ascends (above id later)
    · exact nodup_map_cons (fun g : Field => g.name) distinct unused
    · exact List.forall_mem_cons.2 ⟨fresh, fun g later used => unused g later (List.mem_cons_of_mem _ used)⟩
    · exact List.forall_mem_cons.2 ⟨unreserved, unreservedRest⟩

theorem validate_wellFormed (valid : t.validate = .ok ()) : t.WellFormed := by
  have checked : t.checkFields 0 [] none t.fields = .ok () := by
    unfold validate at valid
    simp [ite_eq_iff, throw_bind] at valid
    exact valid.2.2
  obtain ⟨ascending, distinct, -, unreserved⟩ := checkFields_ok checked
  exact ⟨(List.pairwise_cons.1 ascending).2, distinct, unreserved⟩

end Table

/-- The checks of the tables from some point on, run to the end, give distinct names none of
which was seen before, and tables that validate. -/
theorem checkTables_ok :
    ∀ {ts : List Table} {seen : List String}, checkTables seen ts = .ok () →
      (ts.map (·.name)).Nodup ∧ (∀ t ∈ ts, t.name ∉ seen) ∧ ∀ t ∈ ts, t.validate = .ok ()
  | [], _, _ => by simp
  | t :: rest, seen, ok => by
    rw [checkTables] at ok
    have fresh : t.name ∉ seen := fun used => by simp [used, throw_bind] at ok
    simp only [List.contains_iff_mem, fresh, if_false, bind_eq_ok] at ok
    obtain ⟨⟨⟩, valid, ok⟩ := ok
    obtain ⟨distinct, unseen, validRest⟩ := checkTables_ok ok
    exact ⟨nodup_map_cons (fun u : Table => u.name) distinct unseen,
      List.forall_mem_cons.2 ⟨fresh, fun u later used => unseen u later (List.mem_cons_of_mem _ used)⟩,
      List.forall_mem_cons.2 ⟨valid, validRest⟩⟩

theorem Catalog.validate_wellFormed {c : Catalog} (valid : c.validate = .ok ()) : c.WellFormed := by
  obtain ⟨distinct, -, validTables⟩ := checkTables_ok valid
  exact ⟨distinct, fun t member => Table.validate_wellFormed (validTables t member)⟩

/-! ## Queries -/

theorem Table.field?_some {t : Table} {id : UInt32} {f : Field} (found : t.field? id = some f) :
    f ∈ t.fields ∧ f.id = id :=
  ⟨List.mem_of_find?_eq_some found, by simpa using List.find?_some found⟩

theorem Table.lookup?_some {t : Table} {name : String} {f : Field} (found : t.lookup? name = some f) :
    f ∈ t.fields ∧ f.name = name :=
  ⟨List.mem_of_find?_eq_some found, by simpa using List.find?_some found⟩

theorem Catalog.table?_some {c : Catalog} {name : String} {t : Table} (found : c.table? name = some t) :
    t ∈ c.tables ∧ t.name = name :=
  ⟨List.mem_of_find?_eq_some found, by simpa using List.find?_some found⟩

theorem Catalog.table?_name {c : Catalog} (distinct : (c.tables.map (·.name)).Nodup) {t : Table}
    (member : t ∈ c.tables) : c.table? t.name = some t :=
  find?_key (fun u : Table => u.name) distinct member

namespace Table.WellFormed

variable {t : Table} (wellFormed : t.WellFormed)
include wellFormed

theorem distinctIds : (t.fields.map (·.id)).Nodup := wellFormed.ascending.imp UInt32.ne_of_lt

theorem field?_id {f : Field} (member : f ∈ t.fields) : t.field? f.id = some f :=
  find?_key (fun g : Field => g.id) wellFormed.distinctIds member

theorem lookup?_name {f : Field} (member : f ∈ t.fields) : t.lookup? f.name = some f :=
  find?_key (fun g : Field => g.name) wellFormed.distinctNames member

theorem field?_reserved {id : UInt32} (reserved : id ∈ t.reserved) : t.field? id = none := by
  rw [Table.field?, List.find?_eq_none]
  intro f member numbered
  rw [beq_iff_eq] at numbered
  exact wellFormed.unreserved f member (numbered ▸ reserved)

end Table.WellFormed

/-! ## The rules as a relation -/

/-- Field `f` of `old` is kept by `now`: it is still the first field of its number, or it is gone
with its number reserved, from a table that is not legacy. -/
def Table.Keeps (old now : Table) (f : Field) : Prop :=
  now.field? f.id = some f ∨
    (now.field? f.id = none ∧ f.id ∈ now.reserved ∧ old.generation ≠ Generation.legacy.name)

/-- The new version `now` of table `old` breaks none of its published numbers. -/
structure Table.Evolves (old now : Table) : Prop where
  /-- The generation is the same. -/
  generation : old.generation = now.generation
  /-- Every old field is kept. -/
  kept : ∀ f ∈ old.fields, old.Keeps now f
  /-- Every reserved number stays reserved and unused. -/
  reserved : ∀ id ∈ old.reserved, now.field? id = none ∧ id ∈ now.reserved
  /-- A legacy table gains no number. -/
  frozen : old.generation = Generation.legacy.name → ∀ g ∈ now.fields, (old.field? g.id).isSome
  /-- A name keeps the number the old table gives it. -/
  named : ∀ g ∈ now.fields, ∀ f, old.lookup? g.name = some f → f.id = g.id

theorem fieldBreaches_eq_nil {old now : Table} {f : Field} :
    fieldBreaches old now f = [] ↔ old.Keeps now f := by
  unfold fieldBreaches Table.Keeps
  cases found : now.field? f.id with
  | none => simp [Table.isReserved]
  | some g =>
    have numbered := (Table.field?_some found).2
    -- the field found has `f`'s number, so it is `f` exactly when the rest agrees
    obtain ⟨gid, gname, gkind, gtype, gunion⟩ := g
    obtain ⟨fid, fname, fkind, ftype, funion⟩ := f
    simp only at numbered
    subst numbered
    simp [and_assoc]

theorem reservedBreaches_eq_nil {now : Table} {id : UInt32} :
    reservedBreaches now id = [] ↔ now.field? id = none ∧ id ∈ now.reserved := by
  unfold reservedBreaches
  cases now.field? id <;> simp [Table.isReserved]

theorem newFieldBreaches_eq_nil {old : Table} {g : Field} :
    newFieldBreaches old g = [] ↔ (∀ f, old.lookup? g.name = some f → f.id = g.id) ∧
      (old.generation = Generation.legacy.name → (old.field? g.id).isSome) := by
  unfold newFieldBreaches
  cases old.lookup? g.name <;> simp [Option.isNone_iff_eq_none, Option.isSome_iff_ne_none, imp_not_comm]

/-- A new field of a table whose number a legacy old version already has can breach only by
taking a name of the old table under another number. -/
theorem mem_newFieldBreaches {old : Table} {g : Field}
    (numbered : old.generation = Generation.legacy.name → (old.field? g.id).isSome) {b : UInt32 × Breach} :
    b ∈ newFieldBreaches old g ↔
      ∃ f, old.lookup? g.name = some f ∧ f.id ≠ g.id ∧ b = (g.id, .renumbered g.name f.id) := by
  have added : ¬((old.field? g.id).isNone && old.generation = Generation.legacy.name) = true := by
    simp only [Bool.and_eq_true, decide_eq_true_eq, Option.isNone_iff_eq_none]
    rintro ⟨gone, legacy⟩
    have isSome := numbered legacy
    rw [gone] at isSome
    cases isSome
  unfold newFieldBreaches
  rw [if_neg added, List.append_nil]
  cases old.lookup? g.name with
  | none => simp
  | some f => by_cases renumbered : f.id = g.id <;> simp [renumbered]

theorem breaches_eq_nil {old now : Table} : old.breaches now = [] ↔ old.Evolves now := by
  simp only [Table.breaches, List.map_eq_nil_iff, List.append_eq_nil_iff, List.flatMap_eq_nil_iff,
    fieldBreaches_eq_nil, reservedBreaches_eq_nil, newFieldBreaches_eq_nil, ite_eq_right_iff,
    reduceCtorEq, imp_false, not_not]
  constructor
  · rintro ⟨⟨⟨generation, kept⟩, reserved⟩, added⟩
    exact ⟨generation, kept, reserved, fun legacy g member => (added g member).2 legacy,
      fun g member => (added g member).1⟩
  · rintro ⟨generation, kept, reserved, frozen, named⟩
    exact ⟨⟨⟨generation, kept⟩, reserved⟩, fun g member => ⟨named g member, fun legacy => frozen legacy g member⟩⟩

/-- A catalog keeps the numbers of an earlier one exactly when each earlier table has a version
of its name that evolves from it. -/
theorem checkEvolution_eq_nil {prev cur : Catalog} :
    checkEvolution prev cur = [] ↔ ∀ old ∈ prev.tables, ∃ now, cur.table? old.name = some now ∧ old.Evolves now := by
  unfold checkEvolution
  rw [List.flatMap_eq_nil_iff]
  refine forall₂_congr fun old _ => ?_
  cases cur.table? old.name <;> simp [breaches_eq_nil]

/-! ## Reordering -/

theorem Table.WellFormed.evolves_self {t : Table} (wellFormed : t.WellFormed) : t.Evolves t where
  generation := rfl
  kept _ member := .inl (wellFormed.field?_id member)
  reserved _ member := ⟨wellFormed.field?_reserved member, member⟩
  frozen _ _ member := by rw [wellFormed.field?_id member]; rfl
  named g member f found := by
    rw [wellFormed.lookup?_name member] at found
    cases found
    rfl

/-- A catalog that validates evolves legally into every catalog of the same tables in any order,
among them its snapshot order. -/
theorem checkEvolution_reorder {c : Catalog} (valid : c.validate = .ok ()) :
    (∀ c' : Catalog, c'.tables.Perm c.tables → checkEvolution c c' = []) ∧
      checkEvolution c c.sorted = [] := by
  have wellFormed := Catalog.validate_wellFormed valid
  -- a reordering keeps the names distinct, so each table is found as itself
  have reorder : ∀ c' : Catalog, c'.tables.Perm c.tables → checkEvolution c c' = [] := by
    intro c' reordered
    have distinct : (c'.tables.map (·.name)).Nodup :=
      (reordered.map _).nodup_iff.2 wellFormed.distinctNames
    refine checkEvolution_eq_nil.2 fun old member => ⟨old, ?_, (wellFormed.tables old member).evolves_self⟩
    exact Catalog.table?_name distinct (reordered.mem_iff.2 member)
  refine ⟨reorder, reorder c.sorted ?_⟩
  simpa [Catalog.sorted] using Sorting.stableSort_perm Table.before c.tables.toArray

/-- A legacy table listed before a current one; snapshot order puts the current one first. -/
def legacyFirst : Catalog :=
  ⟨[⟨"Depth", "legacy", [⟨1, "source", "text", "", ""⟩], []⟩,
    ⟨"Pair", "current", [⟨1, "base", "text", "", ""⟩, ⟨3, "quote", "text", "", ""⟩], [2]⟩]⟩

theorem checkEvolution_reorder_legacyFirst :
    legacyFirst.validate = .ok () ∧
      (∀ c' : Catalog, c'.tables.Perm legacyFirst.tables → checkEvolution legacyFirst c' = []) ∧
        checkEvolution legacyFirst legacyFirst.sorted = [] :=
  have valid : legacyFirst.validate = .ok () := by decide
  ⟨valid, checkEvolution_reorder valid⟩

/-! ## Composition -/

/-- A table `Tick` whose field `price` has number 1. -/
def tickPriced : Catalog := ⟨[⟨"Tick", "current", [⟨1, "price", "int64", "", ""⟩], []⟩]⟩

/-- `Tick` with `price` removed and its number reserved. -/
def tickRetired : Catalog := ⟨[⟨"Tick", "current", [], [1]⟩]⟩

/-- `Tick` with `price` back under number 2. -/
def tickReturned : Catalog := ⟨[⟨"Tick", "current", [⟨2, "price", "int64", "", ""⟩], [1]⟩]⟩

/-- Legal evolution is not transitive: three valid catalogs, each step legal, where the name
`price`, retired in the middle, comes back under another number, which a check against the first
catalog reports. -/
theorem retired_name_returns_renumbered :
    tickPriced.validate = .ok () ∧ tickRetired.validate = .ok () ∧ tickReturned.validate = .ok () ∧
      checkEvolution tickPriced tickRetired = [] ∧ checkEvolution tickRetired tickReturned = [] ∧
        checkEvolution tickPriced tickReturned = [⟨"Tick", 2, .renumbered "price" 1⟩] := by
  decide

namespace Table.Evolves

variable {old mid now : Table} (first : old.Evolves mid) (second : mid.Evolves now)
include first second

theorem keeps_trans : ∀ f ∈ old.fields, old.Keeps now f := by
  intro f member
  rcases first.kept f member with stays | ⟨-, reserved, current⟩
  · rcases second.kept f (Table.field?_some stays).1 with staysNow | ⟨gone, reservedNow, currentMid⟩
    · exact .inl staysNow
    · exact .inr ⟨gone, reservedNow, first.generation ▸ currentMid⟩
  · obtain ⟨gone, reservedNow⟩ := second.reserved f.id reserved
    exact .inr ⟨gone, reservedNow, current⟩

theorem reserved_trans : ∀ id ∈ old.reserved, now.field? id = none ∧ id ∈ now.reserved :=
  fun id member => second.reserved id (first.reserved id member).2

theorem frozen_trans :
    old.generation = Generation.legacy.name → ∀ g ∈ now.fields, (old.field? g.id).isSome := by
  intro legacy g member
  obtain ⟨h, found⟩ := Option.isSome_iff_exists.1 (second.frozen (first.generation ▸ legacy) g member)
  obtain ⟨within, numbered⟩ := Table.field?_some found
  exact numbered ▸ first.frozen legacy h within

theorem mem_breaches_trans {v : Violation} :
    v ∈ old.breaches now ↔ ∃ g ∈ now.fields, ∃ f, old.lookup? g.name = some f ∧ f.id ≠ g.id ∧
      v = ⟨old.name, g.id, .renumbered g.name f.id⟩ := by
  have generation := first.generation.trans second.generation
  have kept := first.keeps_trans second
  have reserved := first.reserved_trans second
  have frozen := first.frozen_trans second
  simp only [Table.breaches, generation, ne_eq, not_true_eq_false, if_false, List.nil_append,
    List.flatMap_eq_nil_iff.2 fun f member => fieldBreaches_eq_nil.2 (kept f member),
    List.flatMap_eq_nil_iff.2 fun id member => reservedBreaches_eq_nil.2 (reserved id member),
    List.mem_map, List.mem_flatMap]
  constructor
  · rintro ⟨⟨id, breach⟩, ⟨g, member, reported⟩, rfl⟩
    obtain ⟨f, found, renumbered, same⟩ := (mem_newFieldBreaches (fun legacy => frozen legacy g member)).1 reported
    cases same
    exact ⟨g, member, f, found, renumbered, rfl⟩
  · rintro ⟨g, member, f, found, renumbered, rfl⟩
    have reported := (mem_newFieldBreaches (fun legacy => frozen legacy g member)).2 ⟨f, found, renumbered, rfl⟩
    exact ⟨(g.id, .renumbered g.name f.id), ⟨g, member, reported⟩, rfl⟩

/-- A name of `old` that `now` gives another number was retired by `mid`: `mid` has no field of
that name and reserves its old number. -/
theorem retired_of_renumbered {g : Field} (member : g ∈ now.fields) {f : Field}
    (found : old.lookup? g.name = some f) (renumbered : f.id ≠ g.id) :
    mid.lookup? g.name = none ∧ f.id ∈ mid.reserved := by
  obtain ⟨within, named⟩ := Table.lookup?_some found
  -- a field of `mid` with that name would carry `f`'s number on to `now`
  have unnamed : mid.lookup? g.name = none := by
    cases kept : mid.lookup? g.name with
    | none => rfl
    | some h =>
      obtain ⟨hWithin, hNamed⟩ := Table.lookup?_some kept
      have same : f.id = h.id := first.named h hWithin f (hNamed ▸ found)
      exact absurd (same.trans (second.named g member h kept)) renumbered
  refine ⟨unnamed, ?_⟩
  rcases first.kept f within with stays | ⟨-, reserved, -⟩
  · -- `f` itself would still be in `mid`, under that name
    have absent := List.find?_eq_none.1 unnamed f (Table.field?_some stays).1
    simp [named] at absent
  · exact reserved

end Table.Evolves

section Composition

variable {a b c : Catalog} (first : checkEvolution a b = []) (second : checkEvolution b c = [])
include first second

theorem versions_of_checkEvolution {old : Table} (member : old ∈ a.tables) :
    ∃ mid now, b.table? old.name = some mid ∧ c.table? old.name = some now ∧
      old.Evolves mid ∧ mid.Evolves now := by
  obtain ⟨mid, foundMid, evolvesMid⟩ := checkEvolution_eq_nil.1 first old member
  obtain ⟨within, named⟩ := Catalog.table?_some foundMid
  obtain ⟨now, foundNow, evolvesNow⟩ := checkEvolution_eq_nil.1 second mid within
  exact ⟨mid, now, foundMid, named ▸ foundNow, evolvesMid, evolvesNow⟩

theorem Catalog.retired_of_renumbered {old : Table} (member : old ∈ a.tables) {now : Table}
    (foundNow : c.table? old.name = some now) {g : Field} (within : g ∈ now.fields) {f : Field}
    (found : old.lookup? g.name = some f) (renumbered : f.id ≠ g.id) :
    ∃ mid, b.table? old.name = some mid ∧ mid.lookup? g.name = none ∧ f.id ∈ mid.reserved := by
  obtain ⟨mid, now', foundMid, foundNow', evolvesMid, evolvesNow⟩ := versions_of_checkEvolution first second member
  rw [foundNow] at foundNow'
  cases foundNow'
  exact ⟨mid, foundMid, evolvesMid.retired_of_renumbered evolvesNow within found renumbered⟩

/-- Two legal steps make a legal step but for names that come back: when `b` evolves legally from
`a` and `c` from `b`, the breaches of `c` against `a` are exactly the fields of `c` that carry the
name of a field of `a` under another number, and each such name was retired by `b`, which has no
field of that name and reserves the old number. -/
theorem checkEvolution_compose :
    (∀ v, v ∈ checkEvolution a c ↔
      ∃ old ∈ a.tables, ∃ now, c.table? old.name = some now ∧
        ∃ g ∈ now.fields, ∃ f, old.lookup? g.name = some f ∧ f.id ≠ g.id ∧
          v = ⟨old.name, g.id, .renumbered g.name f.id⟩) ∧
      ∀ old ∈ a.tables, ∀ now, c.table? old.name = some now → ∀ g ∈ now.fields, ∀ f,
        old.lookup? g.name = some f → f.id ≠ g.id →
          ∃ mid, b.table? old.name = some mid ∧ mid.lookup? g.name = none ∧ f.id ∈ mid.reserved := by
  refine ⟨fun v => ?_, fun old member now foundNow g within f found renumbered =>
    Catalog.retired_of_renumbered first second member foundNow within found renumbered⟩
  unfold checkEvolution
  rw [List.mem_flatMap]
  constructor
  · rintro ⟨old, member, reported⟩
    obtain ⟨mid, now, -, foundNow, evolvesMid, evolvesNow⟩ := versions_of_checkEvolution first second member
    rw [foundNow] at reported
    obtain ⟨g, within, f, found, renumbered, rfl⟩ := (evolvesMid.mem_breaches_trans evolvesNow).1 reported
    exact ⟨old, member, now, foundNow, g, within, f, found, renumbered, rfl⟩
  · rintro ⟨old, member, now, foundNow, g, within, f, found, renumbered, rfl⟩
    obtain ⟨mid, now', -, foundNow', evolvesMid, evolvesNow⟩ := versions_of_checkEvolution first second member
    rw [foundNow] at foundNow'
    cases foundNow'
    refine ⟨old, member, ?_⟩
    rw [foundNow]
    exact (evolvesMid.mem_breaches_trans evolvesNow).2 ⟨g, within, f, found, renumbered, rfl⟩

end Composition

/-- The two legal steps from `tickPriced` to `tickReturned` report the return of `price`, a name
that `tickRetired` retired. -/
theorem checkEvolution_compose_tick :
    checkEvolution tickPriced tickRetired = [] ∧ checkEvolution tickRetired tickReturned = [] ∧
      (⟨"Tick", 2, .renumbered "price" 1⟩ : Violation) ∈ checkEvolution tickPriced tickReturned ∧
      ∃ mid, tickRetired.table? "Tick" = some mid ∧ mid.lookup? "price" = none ∧ 1 ∈ mid.reserved := by
  have first : checkEvolution tickPriced tickRetired = [] := by decide
  have second : checkEvolution tickRetired tickReturned = [] := by decide
  obtain ⟨breaches, retired⟩ := checkEvolution_compose first second
  refine ⟨first, second, (breaches _).2 ⟨_, List.mem_singleton_self _, _, rfl, _, List.mem_singleton_self _, _,
    rfl, by decide, rfl⟩, ?_⟩
  exact retired _ (List.mem_singleton_self _) _ rfl _ (List.mem_singleton_self _) _ rfl (by decide)

end MarketData.Schema
