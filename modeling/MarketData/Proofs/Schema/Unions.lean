import MarketData.Proofs.Enumeration
import MarketData.Proofs.Schema.Evolution

/-!
# The arms of unions in a validated table

Validation checks each field against its neighbours only: an absent arm must be named for its
union and be followed by the payload arm of the same union, numbered one more and not `void`; a
payload arm must follow an absent arm of its union. Every codec reads a union as one optional
field, so it relies on a global shape: for every union some field carries, exactly two fields
carry it, the absent arm right before the payload arm, and `union?` finds them.

The global shape follows from the local checks and from the distinct names. Every absent arm of
a union has the one name `absentArmName` gives, so there is only one; every payload arm follows
an absent arm, which is that one, so the payload arm is the field after it (`UnionArms`). With the
guarantees used for evolution (`Table.WellFormed`), numbers from 1 and lookups that find the one
matching field, this is `Table.Valid`, and `Table.valid_of_validate` proves it of every table
that validates.
-/

namespace MarketData.Schema

theorem split_eq_of_nodup {α : Type} {a : α} {l₁ l₂ r₁ r₂ : List α} (nodup : (l₁ ++ a :: r₁).Nodup)
    (same : l₁ ++ a :: r₁ = l₂ ++ a :: r₂) : l₁ = l₂ ∧ r₁ = r₂ := by
  induction l₁ generalizing l₂ with
  | nil =>
    cases l₂ with
    | nil => exact ⟨rfl, by simpa using same⟩
    | cons y l₂ =>
      -- `a` would come again after itself
      rw [List.nil_append, List.cons_append, List.cons.injEq] at same
      obtain ⟨rfl, rfl⟩ := same
      simp at nodup
  | cons x l₁ inductionHypothesis =>
    cases l₂ with
    | nil =>
      rw [List.nil_append, List.cons_append, List.cons.injEq] at same
      obtain ⟨rfl, rfl⟩ := same
      simp at nodup
    | cons y l₂ =>
      rw [List.cons_append, List.cons_append, List.cons.injEq] at same
      obtain ⟨rfl, rest⟩ := same
      obtain ⟨left, right⟩ := inductionHypothesis (List.nodup_cons.1 nodup).2 rest
      exact ⟨congrArg _ left, right⟩

theorem not_of_mem_around {α : Type} {p : α → Prop} {pre post : List α} {a b : α}
    (nodup : (pre ++ a :: b :: post).Nodup) (only : ∀ x ∈ pre ++ a :: b :: post, p x → x = a ∨ x = b) :
    ∀ x ∈ pre ++ post, ¬p x := by
  obtain ⟨-, armsNodup, apart⟩ := List.nodup_append.1 nodup
  have aNotPost : a ∉ post := fun late => (List.nodup_cons.1 armsNodup).1 (List.mem_cons_of_mem _ late)
  have bNotPost : b ∉ post := (List.nodup_cons.1 (List.nodup_cons.1 armsNodup).2).1
  intro x member holds
  rcases List.mem_append.1 member with early | late
  · rcases only x (List.mem_append_left _ early) holds with rfl | rfl
    · exact apart x early x (by simp) rfl
    · exact apart x early x (by simp) rfl
  · rcases only x (by simp [late]) holds with rfl | rfl
    · exact aNotPost late
    · exact bNotPost late

/-- The two arms of the union `u` in a table: the absent arm, of kind `void` and named for the
union, right before the payload arm, numbered one more and of another kind; no other field
belongs to the union, and `union?` finds the two. -/
structure Table.UnionArms (t : Table) (u : String) (absent present : Field) : Prop where
  /-- The payload arm follows the absent arm. -/
  adjacent : ∃ pre post, t.fields = pre ++ absent :: present :: post
  /-- The two arms are the only fields of the union. -/
  carriers : t.fields.filter (·.union == u) = [absent, present]
  /-- The absent arm is `void`. -/
  absentVoid : absent.isVoid = true
  /-- The payload arm is not. -/
  presentNotVoid : present.isVoid = false
  /-- The absent arm has the name its union asks for. -/
  absentName : Bytes.ofString absent.name = absentArmName (Bytes.ofString u)
  /-- The payload arm has the next number. -/
  numbered : present.id.toNat = absent.id.toNat + 1
  /-- The union query finds the two arms. -/
  found : t.union? u = some (absent, present)

/-- Everything validation guarantees of a table: what evolution uses (numbers ascending, names
distinct, no field with a reserved number), numbers from 1, queries by number and by name that
give the one matching field, `void` fields only inside unions, and the two arms of every union
some field carries. -/
structure Table.Valid (t : Table) : Prop extends Table.WellFormed t where
  /-- No field has number 0. -/
  positive : ∀ f ∈ t.fields, 0 < f.id
  /-- The field found by a number is the one field of that number. -/
  field?_iff : ∀ id f, t.field? id = some f ↔ f ∈ t.fields ∧ f.id = id
  /-- The field found by a name is the one field of that name. -/
  lookup?_iff : ∀ name f, t.lookup? name = some f ↔ f ∈ t.fields ∧ f.name = name
  /-- A `void` field belongs to a union. -/
  voidInUnion : ∀ f ∈ t.fields, f.isVoid = true → f.union ≠ ""
  /-- Every union some field carries has its two arms. -/
  unions : ∀ u, u ≠ "" → (∃ f ∈ t.fields, f.union = u) → ∃ absent present, t.UnionArms u absent present

namespace Table

variable {t : Table}

/-! ## The checks at one field -/

/-- A field that passes its checks is not `void` outside a union, and as an arm of a union it
passes the arm checks against its neighbours. -/
theorem checkFields_cons_arm {previous : UInt32} {names : List String} {before : Option Field}
    {f : Field} {rest : List Field} (ok : t.checkFields previous names before (f :: rest) = .ok ()) :
    (f.union = "" → f.isVoid = false) ∧ (f.union ≠ "" → t.checkArm f before rest.head? = .ok ()) := by
  obtain ⟨ascends, unreserved, fresh, -⟩ := checkFields_cons_ok ok
  rw [checkFields] at ok
  -- the checks before the arm's passed, as `checkFields_cons_ok` shows
  simp only [UInt32.not_le.2 ascends, ↓reduceIte, isReserved, List.contains_eq_mem, unreserved, decide_false,
    Bool.false_eq_true, fresh, Option.isNone_iff_eq_none, throw_bind, ite_eq_iff, reduceCtorEq, and_false,
    Bool.not_eq_true, false_or, bind_eq_ok, exists_and_right] at ok
  obtain ⟨-, -, ⟨plain, notVoid, -⟩ | ⟨arm, ⟨⟨⟩, checked⟩, -⟩⟩ := ok
  · exact ⟨fun _ => notVoid, fun inUnion => absurd plain inUnion⟩
  · exact ⟨fun plain => absurd plain arm, fun _ => checked⟩

/-- An absent arm that passes is named for its union and followed by the payload arm of the
same union, numbered one more and not `void`; a payload arm that passes follows an absent arm of
its union. -/
theorem checkArm_ok {f : Field} {before after : Option Field} (ok : t.checkArm f before after = .ok ()) :
    (f.isVoid = true → Bytes.ofString f.name = absentArmName (Bytes.ofString f.union) ∧
      ∃ g, after = some g ∧ g.union = f.union ∧ g.id = f.id + 1 ∧ g.isVoid = false) ∧
    (f.isVoid = false → ∃ p, before = some p ∧ p.union = f.union ∧ p.isVoid = true) := by
  unfold checkArm at ok
  split at ok
  · rename_i void
    refine ⟨fun _ => ?_, fun notVoid => absurd void (by rw [notVoid]; decide)⟩
    split at ok
    · cases ok
    rename_i named
    refine ⟨Decidable.not_not.1 named, ?_⟩
    split at ok
    · cases ok
    rename_i g
    split at ok
    · cases ok
    rename_i follows
    simp only [Bool.or_eq_true, decide_eq_true_eq, not_or, Decidable.not_not] at follows
    exact ⟨g, rfl, follows.1.1, follows.1.2, by simpa using follows.2⟩
  · rename_i notVoid
    refine ⟨fun void => absurd void notVoid, fun _ => ?_⟩
    split at ok
    · rename_i p
      split at ok
      · rename_i follows
        simp only [Bool.and_eq_true, decide_eq_true_eq] at follows
        exact ⟨p, rfl, follows.1, follows.2⟩
      · cases ok
    · cases ok

/-- The checks run over some fields go on, at the field after them, with the last of them as the
field before. -/
theorem checkFields_append (pre : List Field) {fs : List Field} {previous : UInt32} {names : List String}
    {before : Option Field} (ok : t.checkFields previous names before (pre ++ fs) = .ok ()) :
    ∃ previous' names', t.checkFields previous' names' (pre.getLast?.or before) fs = .ok () := by
  induction pre generalizing previous names before with
  | nil => exact ⟨previous, names, ok⟩
  | cons f pre inductionHypothesis =>
    obtain ⟨-, -, -, rest⟩ := checkFields_cons_ok ok
    have last : (f :: pre).getLast?.or before = pre.getLast?.or (some f) := by
      rw [List.getLast?_cons]
      cases pre.getLast? <;> rfl
    rw [last]
    exact inductionHypothesis rest

theorem unionArms_append {u : String} {a b : Field} {post : List Field} :
    ∀ {pre : List Field}, (∀ x ∈ pre, ¬(x.union = u ∧ x.isVoid = true)) →
      unionArms u (pre ++ a :: b :: post) = unionArms u (a :: b :: post)
  | [], _ => rfl
  | x :: pre, skipped => by
    have notArm : (x.union == u && x.isVoid) = false := by
      simpa using skipped x List.mem_cons_self
    cases pre with
    | nil => simp [unionArms, notArm]
    | cons y pre =>
      rw [List.cons_append, List.cons_append, unionArms, notArm, if_neg Bool.false_ne_true, ← List.cons_append]
      exact unionArms_append fun z member => skipped z (List.mem_cons_of_mem _ member)

/-! ## The arms of a union -/

section Arms

variable (valid : t.validate = .ok ())
include valid

theorem checkFields_fields : t.checkFields 0 [] none t.fields = .ok () := by
  unfold validate at valid
  simp only [Option.isNone_iff_eq_none, throw_bind, ite_eq_iff, reduceCtorEq, and_false, false_or] at valid
  exact valid.2.2

theorem arm_checks {pre rest : List Field} {f : Field} (split : t.fields = pre ++ f :: rest) :
    (f.union = "" → f.isVoid = false) ∧ (f.union ≠ "" → t.checkArm f pre.getLast? rest.head? = .ok ()) := by
  have checked := checkFields_fields valid
  rw [split] at checked
  obtain ⟨previous, names, atField⟩ := checkFields_append pre checked
  rw [Option.or_none] at atField
  exact checkFields_cons_arm atField

theorem absent_arm {pre rest : List Field} {f : Field} (split : t.fields = pre ++ f :: rest)
    (inUnion : f.union ≠ "") (void : f.isVoid = true) :
    Bytes.ofString f.name = absentArmName (Bytes.ofString f.union) ∧
      ∃ g post, rest = g :: post ∧ g.union = f.union ∧ g.id.toNat = f.id.toNat + 1 ∧ g.isVoid = false := by
  obtain ⟨named, g, after, sameUnion, next, notVoid⟩ := (checkArm_ok ((arm_checks valid split).2 inUnion)).1 void
  obtain ⟨post, rfl⟩ : ∃ post, rest = g :: post := by
    cases rest with
    | nil => cases after
    | cons g' post =>
      cases after
      exact ⟨post, rfl⟩
  -- numbers ascend, so `f.id + 1` does not wrap
  have ascending := (validate_wellFormed valid).ascending
  rw [split, List.map_append, List.map_cons, List.map_cons, List.pairwise_append] at ascending
  have above : f.id < g.id := (List.pairwise_cons.1 ascending.2.1).1 _ List.mem_cons_self
  have := f.id.toNat_lt
  rw [next, UInt32.lt_iff_toNat_lt] at above
  refine ⟨named, g, post, rfl, sameUnion, ?_, notVoid⟩
  rw [next]
  simp only [UInt32.toNat_add, UInt32.toNat_one, Nat.reducePow] at above this ⊢
  omega

theorem payload_arm {pre rest : List Field} {f : Field} (split : t.fields = pre ++ f :: rest)
    (inUnion : f.union ≠ "") (notVoid : f.isVoid = false) :
    ∃ p, t.fields = pre.dropLast ++ p :: f :: rest ∧ p.union = f.union ∧ p.isVoid = true := by
  obtain ⟨p, last, sameUnion, void⟩ := (checkArm_ok ((arm_checks valid split).2 inUnion)).2 notVoid
  refine ⟨p, ?_, sameUnion, void⟩
  rw [split]
  nth_rewrite 1 [← List.dropLast_append_getLast? p last]
  simp

theorem absent_arm_unique {a x : Field} (memberA : a ∈ t.fields) (memberX : x ∈ t.fields)
    (namedA : Bytes.ofString a.name = absentArmName (Bytes.ofString a.union))
    (namedX : Bytes.ofString x.name = absentArmName (Bytes.ofString x.union)) (same : x.union = a.union) :
    x = a :=
  List.inj_on_of_nodup_map (validate_wellFormed valid).distinctNames memberX memberA
    (Enumeration.ofString_injective (by rw [namedX, namedA, same]))

theorem arms_of_carrier {u : String} (named : u ≠ "") {c : Field} (member : c ∈ t.fields)
    (carries : c.union = u) :
    ∃ pre a b post, t.fields = pre ++ a :: b :: post ∧ a.union = u ∧ a.isVoid = true ∧
      Bytes.ofString a.name = absentArmName (Bytes.ofString a.union) ∧ b.union = a.union ∧
      b.id.toNat = a.id.toNat + 1 ∧ b.isVoid = false := by
  obtain ⟨preC, restC, splitC⟩ := List.append_of_mem member
  have cNamed : c.union ≠ "" := by
    rw [carries]
    exact named
  cases void : c.isVoid
  · -- a payload arm: its absent arm comes right before it
    obtain ⟨p, splitP, pUnion, pVoid⟩ := payload_arm valid splitC cNamed void
    obtain ⟨pName, g, post, next, -, gNumber, gNotVoid⟩ :=
      absent_arm valid splitP (by rw [pUnion]; exact cNamed) pVoid
    cases next
    exact ⟨_, p, c, restC, splitP, pUnion.trans carries, pVoid, pName, pUnion.symm, gNumber, gNotVoid⟩
  · -- an absent arm: its payload arm comes right after it
    obtain ⟨cName, g, post, next, gUnion, gNumber, gNotVoid⟩ := absent_arm valid splitC cNamed void
    subst next
    exact ⟨preC, c, g, post, splitC, carries, void, cName, gUnion, gNumber, gNotVoid⟩

theorem payload_follows {pre post : List Field} {a b x : Field} (split : t.fields = pre ++ a :: b :: post)
    (aName : Bytes.ofString a.name = absentArmName (Bytes.ofString a.union)) (memberX : x ∈ t.fields)
    (xNamed : x.union ≠ "") (xUnion : x.union = a.union) (xVoid : x.isVoid = false) : x = b := by
  obtain ⟨preX, restX, splitX⟩ := List.append_of_mem memberX
  obtain ⟨p, splitP, pUnion, pVoid⟩ := payload_arm valid splitX xNamed xVoid
  have pName := (absent_arm valid splitP (by rw [pUnion]; exact xNamed) pVoid).1
  have memberA : a ∈ t.fields := by
    rw [split]
    simp
  have memberP : p ∈ t.fields := by
    rw [splitP]
    simp
  -- the absent arm before `x` is `a`, and in a list without repeats `a` has one field after it
  obtain rfl := absent_arm_unique valid memberA memberP aName pName (pUnion.trans xUnion)
  have nodup : t.fields.Nodup := (validate_wellFormed valid).distinctNames.of_map _
  rw [split] at splitP nodup
  have tails := (split_eq_of_nodup nodup splitP).2
  rw [List.cons.injEq] at tails
  exact tails.1.symm

/-- Every field of a union is one of its two arms: the absent arm, or a payload arm and so the
field after it. -/
theorem eq_arm_of_union {u : String} (named : u ≠ "") {pre post : List Field} {a b : Field}
    (split : t.fields = pre ++ a :: b :: post) (aUnion : a.union = u)
    (aName : Bytes.ofString a.name = absentArmName (Bytes.ofString a.union)) :
    ∀ x ∈ t.fields, x.union = u → x = a ∨ x = b := by
  have memberA : a ∈ t.fields := by
    rw [split]
    simp
  intro x memberX xUnion
  have xNamed : x.union ≠ "" := by
    rw [xUnion]
    exact named
  cases xVoid : x.isVoid
  · exact .inr (payload_follows valid split aName memberX xNamed (xUnion.trans aUnion.symm) xVoid)
  · obtain ⟨preX, restX, splitX⟩ := List.append_of_mem memberX
    have xName := (absent_arm valid splitX xNamed xVoid).1
    exact .inl (absent_arm_unique valid memberA memberX aName xName (xUnion.trans aUnion.symm))

theorem unionArms_of_carrier {u : String} (named : u ≠ "") {c : Field} (member : c ∈ t.fields)
    (carries : c.union = u) : ∃ absent present, t.UnionArms u absent present := by
  obtain ⟨pre, a, b, post, split, aUnion, aVoid, aName, bUnion, bNumber, bNotVoid⟩ :=
    arms_of_carrier valid named member carries
  have onlyArms := eq_arm_of_union valid named split aUnion aName
  have nodup : t.fields.Nodup := (validate_wellFormed valid).distinctNames.of_map _
  rw [split] at nodup onlyArms
  have outside := not_of_mem_around nodup onlyArms
  refine ⟨a, b, ⟨⟨pre, post, split⟩, ?_, aVoid, bNotVoid, by rw [aName, aUnion], bNumber, ?_⟩⟩
  · have before : pre.filter (·.union == u) = [] :=
      List.filter_eq_nil_iff.2 fun x member => by simpa using outside x (List.mem_append_left _ member)
    have after : post.filter (·.union == u) = [] :=
      List.filter_eq_nil_iff.2 fun x member => by simpa using outside x (List.mem_append_right _ member)
    rw [split, List.filter_append, before, List.filter_cons_of_pos (by simpa using aUnion),
      List.filter_cons_of_pos (by simpa using bUnion.trans aUnion), after]
    rfl
  · rw [union?, split, unionArms_append fun x member arm => outside x (List.mem_append_left _ member) arm.1,
      unionArms, if_pos (by simp [aUnion, aVoid])]

end Arms

/-! ## Validated tables -/

/-- A table that validates has the shape every codec assumes of it: numbers from 1, ascending
and unreserved, distinct names, queries by number and name that find the one matching field,
`void` fields only as absent arms, and for every union some field carries, exactly its two
arms, adjacent and numbered `k` and `k + 1`, found by `union?`. -/
theorem valid_of_validate (valid : t.validate = .ok ()) : t.Valid where
  toWellFormed := validate_wellFormed valid
  positive f member := by
    have ascending := (checkFields_ok (checkFields_fields valid)).1
    exact (List.pairwise_cons.1 ascending).1 f.id (List.mem_map_of_mem member)
  field?_iff id f := by
    constructor
    · exact field?_some
    · rintro ⟨member, rfl⟩
      exact (validate_wellFormed valid).field?_id member
  lookup?_iff name f := by
    constructor
    · exact lookup?_some
    · rintro ⟨member, rfl⟩
      exact (validate_wellFormed valid).lookup?_name member
  voidInUnion f member void plain := by
    obtain ⟨pre, rest, split⟩ := List.append_of_mem member
    rw [(arm_checks valid split).1 plain] at void
    cases void
  unions u named := by
    rintro ⟨c, member, carries⟩
    exact unionArms_of_carrier valid named member carries

end Table

/-- A table of quotes: a source, then the optional chain as its two arms, with number 4
reserved. -/
def quoteTable : Table :=
  ⟨"Quote", "current", [⟨1, "source", "text", "", ""⟩, ⟨2, "noChain", "void", "", "chain"⟩,
    ⟨3, "chain", "enum", "Chain", "chain"⟩], [4]⟩

theorem quoteTable_valid : quoteTable.validate = .ok () ∧ quoteTable.Valid :=
  have valid : quoteTable.validate = .ok () := by
    simp [quoteTable, Table.validate, Table.checkFields, Table.checkArm, absentArmName_ascii, Generation.ofName?,
      Generation.name, Kind.ofName?, Kind.all, Kind.name, Table.isReserved, Field.isVoid]
  ⟨valid, Table.valid_of_validate valid⟩

end MarketData.Schema
