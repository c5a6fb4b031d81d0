import MarketData.Yaml.Node
import MarketData.Yaml.Value
import MarketData.Text.Base64
import MarketData.Text.Utf8

/-!
Decoding YAML nodes into typed values.

A decoder reads a node into a value of some type, starting from the value already there: it
either gives a new value or leaves the old one, and the caller decides what leaving means (a
record keeps its field, a list drops the entry). A null scalar leaves text, numbers and records
as they are, and empties lists and mappings.

* Text takes the text of any scalar (base64 decoded under `!!binary`).
* An unsigned 32-bit number takes an integer in range, or a float whose integer part is in
  range.
* A signed 64-bit number takes an integer in range; a float is cut to its integer part, and one
  below the range, or `-.inf`, becomes the least value. NaN, `.inf` and other floats above the
  range fail.
* A list takes a sequence, entry by entry.
* A record takes a mapping: keys are read as text, a key that is no field is ignored, and a
  field named twice fails.
* A dynamic value takes anything.

Any two keys of one mapping with the same kind and text fail, whatever the target. An alias is
decoded as the node it names; an alias met again while it is being decoded fails, and so does a
document where nearly all decoding goes through aliases.
-/

namespace MarketData.Yaml

/-- The progress of decoding: nodes decoded, of which through an alias, and the aliases being
followed. -/
structure Walk where
  /-- Nodes decoded. -/
  decodes : Nat
  /-- Nodes decoded inside an alias. -/
  aliased : Nat
  /-- The aliases being followed, innermost first. -/
  active : List Nat
  /-- While merging mappings, the keys seen so far. -/
  merged : Option (List Value)

/-- Decoding within a document. -/
abbrev DecodeM := ReaderT Document (StateT Walk (Except String))

/-- A decoder: given fuel, a node and the value already there, a new value or none to leave it. -/
abbrev Decoder (α : Type) := Nat → Nat → α → DecodeM (Option α)

/-- What a scalar means to a decoder: its tag, its value, and its text. -/
structure Reading where
  /-- The tag it resolved to. -/
  tag : String
  /-- Its value. -/
  value : Scalar
  /-- Its text; under `!!binary`, the decoded bytes. -/
  text : String

/-- Whether a scalar reads as null. -/
def Reading.isNull (r : Reading) : Bool :=
  match r.value with
  | .null => true
  | _ => false

/-- Whether a scalar is text by its tag. -/
def Node.isText (n : Node) : Bool := n.kind = .scalar && n.tag = strTag

namespace Decoder

/-- Fails with a reason. -/
def fail {α : Type} (reason : String) : DecodeM α := throw reason

/-- The node at a position. -/
def nodeAt (id : Nat) : DecodeM Node := do pure ((← read).node id)

/-- Counts a decoded node; fails when more than 99 in 100 of over 1000 decoded nodes came
through aliases. -/
def tick : DecodeM Unit := do
  let w ← get
  let decodes := w.decodes + 1
  let aliased := if w.active.isEmpty then w.aliased else w.aliased + 1
  set { w with decodes, aliased }
  if aliased > 100 && decodes > 1000 && 100 * aliased > 99 * decodes then
    fail "document contains excessive aliasing"

/-- Runs a step inside an alias, which must not already be followed. -/
def withAlias {α : Type} (id : Nat) (n : Node) (act : DecodeM α) : DecodeM α := do
  let w ← get
  if w.active.contains id then fail s!"anchor '{n.value}' value contains itself"
  set { w with active := id :: w.active }
  let r ← act
  modify fun w => { w with active := w.active.drop 1 }
  pure r

/-- A decoder from a step on the node itself, aliases followed. -/
def follow {α : Type} (step : Nat → Node → α → DecodeM (Option α)) : Decoder α
  | 0, _, _ => fail "the document is nested too deeply"
  | fuel + 1, id, out => do
    tick
    let n ← nodeAt id
    if n.kind = .alias then
      withAlias id n do
        tick
        step fuel (← nodeAt n.target) out
    else step fuel n out

/-- The tag of a node, through an alias. -/
def shortTagOf (n : Node) : DecodeM String := do
  if n.kind = .alias then pure (← nodeAt n.target).tag else pure n.tag

/-- Whether a key is the merge key `<<`. -/
def isMerge (n : Node) : Bool := n.kind = .scalar && n.value = "<<" && n.tag = mergeTag

/-- How a decoder reads a scalar. -/
def reading (n : Node) : DecodeM Reading := do
  if n.isText then return ⟨strTag, .str, n.value⟩
  match resolve n.tag n.value with
  | none => fail s!"cannot decode {n.value} as a {n.tag}"
  | some (tag, s) =>
    if tag = binaryTag then
      match Base64.decode? n.value with
      | some bytes => pure ⟨tag, .str, Utf8.toStringLossy bytes⟩
      | none => fail "!!binary value contains invalid base64 data"
    else pure ⟨tag, s, n.value⟩

/-- The keys and values of a mapping, in pairs. -/
def pairs : List Nat → List (Nat × Nat)
  | k :: v :: rest => (k, v) :: pairs rest
  | _ => []

/-- Fails when two keys of a mapping have the same kind and text. -/
def checkKeys (n : Node) : DecodeM Unit := do
  let keys ← (pairs n.content.toList).mapM fun (k, _) => nodeAt k
  let rec go : List Node → DecodeM Unit
    | [] => pure ()
    | k :: rest =>
      if rest.any fun j => j.kind = k.kind && j.value = k.value then fail s!"mapping key {k.value} already defined"
      else go rest
  go keys

/-- Text: the text of any scalar. -/
def text : Decoder String := follow fun _ n _ => do
  match n.kind with
  | .scalar =>
    let r ← reading n
    pure (if r.isNull then none else some r.text)
  | _ => fail "cannot unmarshal a collection into a string"

/-- An unsigned 32-bit number. -/
def word : Decoder UInt32 := follow fun _ n _ => do
  let bad {α : Type} : DecodeM α := fail s!"cannot unmarshal {n.value} into uint32"
  match n.kind with
  | .scalar =>
    let r ← reading n
    match r.value with
    | .null => pure none
    | .int i => if 0 ≤ i ∧ i < Int.pow 2 32 then pure (some i.toNat.toUInt32) else bad
    | .uint m => if m < Nat.pow 2 32 then pure (some m.toUInt32) else bad
    | .float x =>
      if x.isFinite ∧ 0 ≤ x.truncate ∧ x.truncate < Int.pow 2 32 then pure (some x.truncate.toNat.toUInt32)
      else bad
    | _ => bad
  | _ => bad

/-- The least signed 64-bit number. -/
def leastInteger : Int := -Int.pow 2 63

/-- A signed 64-bit number. -/
def integer : Decoder Int := follow fun _ n _ => do
  let bad {α : Type} : DecodeM α := fail s!"cannot unmarshal {n.value} into int"
  match n.kind with
  | .scalar =>
    let r ← reading n
    match r.value with
    | .null => pure none
    | .int i => pure (some i)
    | .float x =>
      if x.isNaN then bad
      else if x.isInf then (if x.negative then pure (some leastInteger) else bad)
      else
        let t := x.truncate
        if t > Int.pow 2 63 then bad
        else if t = Int.pow 2 63 ∨ t < leastInteger then pure (some leastInteger)
        else pure (some t)
    | _ => bad
  | _ => bad

/-- A list, each entry decoded from `zero`; entries left as they are dropped. -/
def list {α : Type} (item : Decoder α) (zero : α) : Decoder (List α) := follow fun fuel n _ => do
  match n.kind with
  | .sequence => some <$> n.content.toList.filterMapM fun c => item fuel c zero
  | .scalar =>
    let r ← reading n
    if r.isNull then pure (some []) else fail "cannot unmarshal a scalar into a list"
  | _ => do
    checkKeys n
    fail "cannot unmarshal a mapping into a list"

/-- Takes the keys merged so far, leaving none for the mappings decoded meanwhile. -/
def takeMerged : DecodeM (Option (List Value)) :=
  modifyGet fun w => (w.merged, { w with merged := none })

/-- Sets the keys merged so far. -/
def putMerged (m : Option (List Value)) : DecodeM Unit := modify fun w => { w with merged := m }

/-- Runs a step on a node, aliases followed. -/
def visit {α : Type} (id : Nat) (act : Node → DecodeM α) : DecodeM α := do
  tick
  let n ← nodeAt id
  if n.kind = .alias then
    withAlias id n do
      tick
      act (← nodeAt n.target)
  else act n

/-- The mappings a merge key brings in: its value, a mapping or an alias of one, or each entry
of a sequence of such. -/
def mergeSources (id : Nat) : DecodeM (List Nat) := do
  let isMapping (n : Node) : DecodeM Bool := do
    if n.kind = .alias then pure ((← nodeAt n.target).kind = .mapping) else pure (n.kind = .mapping)
  let bad {α : Type} : DecodeM α := fail "map merge requires map or sequence of maps as the value"
  let m ← nodeAt id
  match m.kind with
  | .mapping | .alias => if ← isMapping m then pure [id] else bad
  | .sequence => m.content.toList.mapM fun c => do if ← isMapping (← nodeAt c) then pure c else bad
  | .scalar => bad

/-- Decodes the pairs of a mapping into `acc`. Each key is read by `key` (none skips the pair) and
the pair stored by `put`, told whether the key came before in this mapping.

A merge key `<<` brings in the pairs of other mappings after the mapping's own, into the same
value, but never a key already there: while merging, the keys seen so far, starting with the
merging mapping's own keys (read by `keyValue`), are skipped, and each new key joins them. -/
def intoMapping {K S : Type} (keyValue : Nat → DecodeM Value) (key : Nat → DecodeM (Option K))
    (name : K → Value) (put : Bool → K → Nat → S → DecodeM S) : Nat → Node → S → DecodeM S
  | 0, _, _ => fail "the document is nested too deeply"
  | fuel + 1, n, acc => do
    checkKeys n
    let inherited ← takeMerged
    let step (st : S × Option Nat × Option (List Value) × List Value) (kv : Nat × Nat) := do
      let (acc, source, merged, done) := st
      if isMerge (← nodeAt kv.1) then return (acc, some kv.2, merged, done)
      match ← key kv.1 with
      | none => pure st
      | some k =>
        let v := name k
        if merged.any fun set => set.any (·.sameKey v) then return st
        let acc ← put (done.any (·.sameKey v)) k kv.2 acc
        pure (acc, source, merged.map (· ++ [v]), v :: done)
    let pairsOf := pairs n.content.toList
    let (acc, source, merged, _) ← pairsOf.foldlM step (acc, none, inherited, [])
    putMerged merged
    match source with
    | none => pure acc
    | some s =>
      if merged.isNone then
        let keys ← pairsOf.mapM fun (k, _) => keyValue k
        if keys.any Value.isCollection then fail "a key that is a collection cannot be merged"
        putMerged (some keys)
      let acc ← (← mergeSources s).foldlM (fun acc t =>
        visit t fun m => intoMapping keyValue key name put fuel m acc) acc
      if merged.isNone then putMerged none
      pure acc

mutual

/-- A dynamic value. -/
def dynamic : Nat → Nat → DecodeM Value
  | 0, _ => fail "the document is nested too deeply"
  | fuel + 1, id => visit id (dynamicOf fuel)

/-- A dynamic value from a node other than an alias. A mapping whose keys are all text by their
tags becomes a text mapping, with null keys skipped; any other mapping has dynamic keys, which
must not be collections. -/
def dynamicOf : Nat → Node → DecodeM Value
  | 0, _ => fail "the document is nested too deeply"
  | fuel + 1, n => do
    match n.kind with
    | .scalar =>
      let r ← reading n
      pure <| match r.value with
        | .null => .null
        | .bool b => .bool b
        | .int i => .int i
        | .uint m => .uint m
        | .float x => .float x
        | .timestamp => .text n.value
        | .str => .text r.text
    | .sequence => .list <$> n.content.toList.mapM fun c => dynamic fuel c
    | .mapping =>
      let keys ← (pairs n.content.toList).mapM fun (k, _) => do shortTagOf (← nodeAt k)
      if keys.all fun t => t = strTag || t = mergeTag then
        .textMap <$> intoMapping (dynamic fuel) (fun k => text fuel k "") Value.text
          (fun _ k v acc => do pure (setText acc k (← dynamic fuel v))) fuel n []
      else
        .anyMap <$> intoMapping (dynamic fuel)
          (fun k => do
            let key ← dynamic fuel k
            if key.isCollection then fail "invalid map key"
            pure (some key)) id
          (fun _ k v acc => do pure (setAny acc k (← dynamic fuel v))) fuel n []
    | .alias => fail "an alias of an alias"

end

/-- A dynamic value as a decoder: it always gives a value. -/
def any : Decoder Value := fun fuel id _ => some <$> dynamic fuel id

/-- A mapping from text to dynamic values; null keys are skipped. -/
def textMap : Decoder (List (String × Value)) := follow fun fuel n acc => do
  match n.kind with
  | .mapping =>
    some <$> intoMapping (dynamic fuel) (fun k => text fuel k "") Value.text
      (fun _ k v acc => do pure (setText acc k (← dynamic fuel v))) fuel n acc
  | .scalar =>
    let r ← reading n
    if r.isNull then pure (some []) else fail "cannot unmarshal a scalar into a mapping"
  | _ => fail "cannot unmarshal a sequence into a mapping"

/-- A field of a record: its key and how its value is decoded into the record. -/
structure Member (σ : Type) where
  /-- The key. -/
  key : String
  /-- Decodes a node into the record's field. -/
  decode : Nat → Nat → σ → DecodeM σ

/-- A field of a record read by a decoder; a value left as it is keeps the field. -/
def Member.of {σ α : Type} (key : String) (d : Decoder α) (get : σ → α) (put : σ → α → σ) : Member σ :=
  ⟨key, fun fuel id r => do
    match ← d fuel id (get r) with
    | some a => pure (put r a)
    | none => pure r⟩

/-- A record from a mapping: each key read as text names a field, decoded in turn; a key that
names no field is ignored, and a field named twice fails. -/
def record {σ : Type} (members : List (Member σ)) : Decoder σ := follow fun fuel n out => do
  match n.kind with
  | .mapping =>
    let put (again : Bool) (k : String) (v : Nat) (out : σ) : DecodeM σ :=
      match members.find? (·.key = k) with
      | none => pure out
      | some m => if again then fail s!"field {k} already set" else m.decode fuel v out
    some <$> intoMapping (dynamic fuel) (fun k => text fuel k "") Value.text put fuel n out
  | .scalar =>
    let r ← reading n
    if r.isNull then pure none else fail "cannot unmarshal a scalar into a record"
  | _ => fail "cannot unmarshal a sequence into a record"

end Decoder

/-- Decodes the first document of a YAML text into a value, starting from `init`. A stream with
no document gives none. -/
def decodeFirst {α : Type} (d : Decoder α) (text : String) (init : α) : Except String (Option α) :=
  match Document.read? text with
  | .error e => .error e.reason
  | .ok none => .ok none
  | .ok (some doc) =>
    let fuel := 2 * doc.nodes.size + 16
    match ((d fuel doc.root init).run doc).run' ⟨0, 0, [], none⟩ with
    | .ok r => .ok (some (r.getD init))
    | .error e => .error e

end MarketData.Yaml
