import MarketData.Yaml.Scanner
import MarketData.Yaml.Resolve

/-!
YAML documents as trees of nodes.

A document is read from the tokens of the scanner by recursive descent. Its nodes are kept in an
array and refer to each other by position, so that an alias is simply the position of the node
its anchor names. An anchor is given to its node before the node's children are read, so a
collection may contain an alias of itself; following such an alias is the decoder's business.

Each node gets its tag when it is made: an explicit tag other than `!`, written short; else the
tag its form implies (`!!str` for a quoted or block scalar, `!!merge` for a plain `<<`, `!!seq`
and `!!map` for collections); else, for a plain scalar, the tag its text resolves to.

Only the first document of a stream is read. The tokens are scanned as far as that document and
the lookahead of three tokens need, so a fault further on in the text goes unnoticed.
-/

namespace MarketData.Yaml

/-- The kinds of node. -/
inductive NodeKind where
  /-- A scalar. -/
  | scalar
  /-- A sequence. -/
  | sequence
  /-- A mapping. -/
  | mapping
  /-- An alias of an anchored node. -/
  | alias
  deriving DecidableEq, Repr, Inhabited

/-- A node of a document. -/
structure Node where
  /-- What the node is. -/
  kind : NodeKind
  /-- The node's tag, written short; empty for an alias. -/
  tag : String
  /-- A scalar's text, or the name an alias refers to. -/
  value : String
  /-- How a scalar was written. -/
  style : ScalarStyle
  /-- The positions of a sequence's entries, or of a mapping's keys and values in turn. -/
  content : Array Nat
  /-- The position of the node an alias refers to. -/
  target : Nat
  deriving Inhabited

/-- A document: its nodes and the position of the root. -/
structure Document where
  /-- The nodes. -/
  nodes : Array Node
  /-- The position of the root node. -/
  root : Nat
  deriving Inhabited

/-- The tag of a new node: an explicit tag other than `!`, else the tag its form implies, else
for a scalar the tag its text resolves to. -/
def nodeTag (kind : NodeKind) (implied explicit value : String) : String :=
  if explicit ≠ "" ∧ explicit ≠ "!" then shortTag explicit
  else if implied ≠ "" then implied
  else if kind = .scalar then (resolvePlain value).tag
  else ""

/-- A new scalar node. -/
def Node.scalar (explicit value : String) (style : ScalarStyle) : Node :=
  let implied := if style = .plain then (if value = "<<" then mergeTag else "") else strTag
  ⟨.scalar, nodeTag .scalar implied explicit value, value, style, #[], 0⟩

/-- A new collection node, its entries still to come. -/
def Node.collection (kind : NodeKind) (explicit : String) : Node :=
  ⟨kind, nodeTag kind (if kind = .sequence then seqTag else mapTag) explicit "", "", .plain, #[], 0⟩

/-- The state of reading a document: the scanner, the nodes made so far, the anchors by name,
and the tag handles in force. -/
structure Composer where
  /-- The scanner. -/
  scanner : Scanner
  /-- The nodes made so far. -/
  nodes : Array Node
  /-- The position of the node of each anchor. -/
  anchors : List (String × Nat)
  /-- The prefix of each tag handle. -/
  handles : List (String × String)

/-- Reading a document. -/
abbrev ComposeM := StateT Composer (Except Malformed)

namespace Composer

/-- Fails with a reason. -/
def fail {α : Type} (reason : String) : ComposeM α := throw ⟨reason⟩

/-- The next token, scanning as far as needed. -/
def peek : ComposeM Token := do
  let st ← get
  match st.scanner.peek with
  | .ok (t, scanner) => set { st with scanner } *> pure t
  | .error e => throw e

/-- Takes the next token. -/
def next : ComposeM Unit := modify fun st => { st with scanner := st.scanner.next }

/-- Adds a node and gives its position. -/
def add (n : Node) : ComposeM Nat :=
  modifyGet fun st => (st.nodes.size, { st with nodes := st.nodes.push n })

/-- Sets the entries of a collection. -/
def fill (id : Nat) (content : Array Nat) : ComposeM Unit :=
  modify fun st => { st with nodes := st.nodes.modify id fun n => { n with content } }

/-- Names a node by an anchor, if there is one; a later anchor of the same name wins. -/
def name (anchor : Option String) (id : Nat) : ComposeM Unit :=
  match anchor with
  | some a => modify fun st => { st with anchors := (a, id) :: st.anchors.filter (·.1 ≠ a) }
  | none => pure ()

/-- An empty plain scalar, which stands for a node left out. -/
def empty : ComposeM Nat := add (Node.scalar "" "" .plain)

/-- An empty scalar with the given properties. -/
def emptyWith (anchor : Option String) (tag : String) : ComposeM Nat := do
  let id ← add (Node.scalar tag "" .plain)
  name anchor id
  pure id

/-- The anchor and tag in front of a node, in either order. -/
def properties : ComposeM (Option String × Option (String × String)) := do
  match ← peek with
  | .anchor a =>
    next
    match ← peek with
    | .tag h s => next *> pure (some a, some (h, s))
    | _ => pure (some a, none)
  | .tag h s =>
    next
    match ← peek with
    | .anchor a => next *> pure (some a, some (h, s))
    | _ => pure (none, some (h, s))
  | _ => pure (none, none)

/-- The full text of a tag: the suffix alone for an empty handle, else the handle's prefix and
the suffix. -/
def tagText : Option (String × String) → ComposeM String
  | none => pure ""
  | some ("", suffix) => pure suffix
  | some (handle, suffix) => do
    match (← get).handles.lookup handle with
    | some pre =>
      if (pre ++ suffix).isEmpty then fail "found undefined tag handle" else pure (pre ++ suffix)
    | none => fail "found undefined tag handle"

/-- Whether a token ends the entries of a block collection here, so that an entry is empty. -/
def endsBlockEntry (t : Token) : Bool := t = .blockEntry || t = .blockEnd

/-- Whether a token means that a block mapping's key or value is left out. -/
def endsBlockPart (t : Token) : Bool := t = .key || t = .value || t = .blockEnd

mutual

/-- A node: an alias, or properties followed by a scalar, a collection, or nothing. In block
context (`block`) block collections may start; `indentless` allows a sequence whose entries
stand at the indentation of the mapping key it belongs to. -/
def node (block indentless : Bool) : Nat → ComposeM Nat
  | 0 => fail "the document is nested too deeply"
  | fuel + 1 => do
    match ← peek with
    | .alias a =>
      next
      match (← get).anchors.lookup a with
      | some target => add ⟨.alias, "", a, .plain, #[], target⟩
      | none => fail s!"unknown anchor '{a}' referenced"
    | _ =>
      let (anchor, tagged) ← properties
      let tag ← tagText tagged
      let t ← peek
      if indentless && t = .blockEntry then
        let id ← add (Node.collection .sequence tag)
        name anchor id
        indentlessSequence id #[] fuel
      else
        match t with
        | .scalar v style =>
          next
          let id ← add (Node.scalar tag v style)
          name anchor id
          pure id
        | .flowSequenceStart =>
          let id ← add (Node.collection .sequence tag)
          name anchor id
          next
          flowSequence true id #[] fuel
        | .flowMappingStart =>
          let id ← add (Node.collection .mapping tag)
          name anchor id
          next
          flowMapping true id #[] fuel
        | .blockSequenceStart =>
          if block then
            let id ← add (Node.collection .sequence tag)
            name anchor id
            next
            blockSequence id #[] fuel
          else if anchor.isSome || tagged.isSome then emptyWith anchor tag
          else fail "did not find expected node content"
        | .blockMappingStart =>
          if block then
            let id ← add (Node.collection .mapping tag)
            name anchor id
            next
            blockMapping id #[] fuel
          else if anchor.isSome || tagged.isSome then emptyWith anchor tag
          else fail "did not find expected node content"
        | _ =>
          if anchor.isSome || tagged.isSome then emptyWith anchor tag
          else fail "did not find expected node content"
termination_by structural fuel => fuel

/-- The entries of a block sequence after its start, up to its end. -/
def blockSequence (id : Nat) (acc : Array Nat) : Nat → ComposeM Nat
  | 0 => fail "the document is nested too deeply"
  | fuel + 1 => do
    match ← peek with
    | .blockEntry =>
      next
      let entry ← if endsBlockEntry (← peek) then empty else node true false fuel
      blockSequence id (acc.push entry) fuel
    | .blockEnd => next *> fill id acc *> pure id
    | _ => fail "did not find expected '-' indicator"
termination_by structural fuel => fuel

/-- The entries of a sequence that stands at the indentation of its mapping key. -/
def indentlessSequence (id : Nat) (acc : Array Nat) : Nat → ComposeM Nat
  | 0 => fail "the document is nested too deeply"
  | fuel + 1 => do
    if (← peek) = .blockEntry then
      next
      let t ← peek
      let entry ← if t = .blockEntry || endsBlockPart t then empty else node true false fuel
      indentlessSequence id (acc.push entry) fuel
    else fill id acc *> pure id
termination_by structural fuel => fuel

/-- The keys and values of a block mapping after its start, up to its end. -/
def blockMapping (id : Nat) (acc : Array Nat) : Nat → ComposeM Nat
  | 0 => fail "the document is nested too deeply"
  | fuel + 1 => do
    match ← peek with
    | .key =>
      next
      let k ← if endsBlockPart (← peek) then empty else node true true fuel
      let v ← blockValue fuel
      blockMapping id (acc.push k |>.push v) fuel
    | .blockEnd => next *> fill id acc *> pure id
    | _ => fail "did not find expected key"
termination_by structural fuel => fuel

/-- The value of a block mapping's key, empty when left out. -/
def blockValue : Nat → ComposeM Nat
  | 0 => fail "the document is nested too deeply"
  | fuel + 1 => do
    if (← peek) = .value then
      next
      if endsBlockPart (← peek) then empty else node true true fuel
    else empty
termination_by structural fuel => fuel

/-- The entries of a flow sequence after `[`, up to and past `]`. An entry `k: v` is a mapping
of one pair. -/
def flowSequence (first : Bool) (id : Nat) (acc : Array Nat) : Nat → ComposeM Nat
  | 0 => fail "the document is nested too deeply"
  | fuel + 1 => do
    let t ← peek
    if t = .flowSequenceEnd then return ← next *> fill id acc *> pure id
    let t ← if first then pure t else
      if t = .flowEntry then next *> peek else fail "did not find expected ',' or ']'"
    if t = .key then
      next
      let pair ← add (Node.collection .mapping "")
      let t ← peek
      let k ← if t = .value || t = .flowEntry || t = .flowSequenceEnd then next *> empty
        else node false false fuel
      let v ← pairValue fuel
      fill pair #[k, v]
      flowSequence false id (acc.push pair) fuel
    else if t = .flowSequenceEnd then next *> fill id acc *> pure id
    else
      let entry ← node false false fuel
      flowSequence false id (acc.push entry) fuel
termination_by structural fuel => fuel

/-- The value of a pair inside a flow sequence, empty when left out. -/
def pairValue : Nat → ComposeM Nat
  | 0 => fail "the document is nested too deeply"
  | fuel + 1 => do
    if (← peek) = .value then
      next
      let t ← peek
      if t = .flowEntry || t = .flowSequenceEnd then empty else node false false fuel
    else empty
termination_by structural fuel => fuel

/-- The pairs of a flow mapping after `{`, up to and past `}`. An entry without `:` has an
empty value. -/
def flowMapping (first : Bool) (id : Nat) (acc : Array Nat) : Nat → ComposeM Nat
  | 0 => fail "the document is nested too deeply"
  | fuel + 1 => do
    let t ← peek
    if t = .flowMappingEnd then return ← next *> fill id acc *> pure id
    let t ← if first then pure t else
      if t = .flowEntry then next *> peek else fail "did not find expected ',' or '\x7d'"
    if t = .key then
      next
      let t ← peek
      let k ← if t = .value || t = .flowEntry || t = .flowMappingEnd then empty
        else node false false fuel
      let v ← flowValue fuel
      flowMapping false id (acc.push k |>.push v) fuel
    else if t = .flowMappingEnd then next *> fill id acc *> pure id
    else
      let k ← node false false fuel
      let v ← empty
      flowMapping false id (acc.push k |>.push v) fuel
termination_by structural fuel => fuel

/-- The value of a flow mapping's key, empty when left out. -/
def flowValue : Nat → ComposeM Nat
  | 0 => fail "the document is nested too deeply"
  | fuel + 1 => do
    if (← peek) = .value then
      next
      let t ← peek
      if t = .flowEntry || t = .flowMappingEnd then empty else node false false fuel
    else empty
termination_by structural fuel => fuel

end

/-- The tag handles every document starts with. -/
def defaultHandles : List (String × String) := [("!", "!"), ("!!", "tag:yaml.org,2002:")]

/-- The directives before an explicit document: at most one `%YAML`, which must be 1.1, and
`%TAG` directives with distinct handles. -/
def directives (version : Bool) (handles : List (String × String)) : Nat → ComposeM (List (String × String))
  | 0 => fail "too many directives"
  | fuel + 1 => do
    match ← peek with
    | .versionDirective major minor =>
      if version then fail "found duplicate %YAML directive"
      else if major ≠ 1 || minor ≠ 1 then fail "found incompatible YAML document"
      else next *> directives true handles fuel
    | .tagDirective h uri =>
      if (handles.lookup h).isSome then fail "found duplicate %TAG directive"
      else next *> directives version (handles ++ [(h, uri)]) fuel
    | _ => pure (handles ++ defaultHandles.filter fun (h, _) => (handles.lookup h).isNone)

/-- Whether a token leaves the content of an explicit document out. -/
def endsDocument (t : Token) : Bool :=
  match t with
  | .versionDirective _ _ | .tagDirective _ _ | .documentStart | .documentEnd | .streamEnd => true
  | _ => false

/-- The first document of the stream, if there is one. -/
def firstDocument (fuel : Nat) : ComposeM (Option Document) := do
  if (← peek) = .streamStart then next
  let t ← peek
  let root ← match t with
    | .streamEnd => return none
    | .versionDirective _ _ | .tagDirective _ _ | .documentStart => do
      let handles ← directives false [] fuel
      modify fun st => { st with handles }
      if (← peek) ≠ .documentStart then fail "did not find expected <document start>"
      next
      if endsDocument (← peek) then empty else node true false fuel
    | _ => do
      modify fun st => { st with handles := defaultHandles }
      node true false fuel
  if (← peek) = .documentEnd then next
  pure (some ⟨(← get).nodes, root⟩)

end Composer

/-- The first document of a YAML text, or none for a stream without documents. Characters that
may not appear in YAML are refused, and a byte order mark at the start is dropped. -/
def Document.read? (text : String) : Except Malformed (Option Document) :=
  let chars := text.toList
  if !chars.all isAllowed then .error ⟨"control characters are not allowed"⟩
  else
    let chars := match chars with
      | '\uFEFF' :: rest => rest
      | _ => chars
    let fuel := 4 * chars.length + 64
    (Composer.firstDocument fuel).run' ⟨Scanner.start chars, #[], [], []⟩

/-- The node at a position. -/
def Document.node (d : Document) (id : Nat) : Node := d.nodes[id]?.getD default

end MarketData.Yaml
