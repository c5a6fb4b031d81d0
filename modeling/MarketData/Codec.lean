import MarketData.Protobuf.Entity
import MarketData.Borsh.Entity
import MarketData.Json.Entity
import MarketData.Parquet.File

/-!
Formats and codecs.

An entity can be written in four formats: protobuf, borsh, parquet and JSON. A format is named
case-insensitively, with blanks around it, and `proto`, `pb` and `parq` stand for protobuf,
protobuf and parquet. A codec is a format with its settings: parquet has a compression (snappy
by default), JSON an indent (none by default). Looking a codec up checks the compression first,
whatever the format, and then wants the format's exact name.

Codecs take entities only; any other value fails with `unsupportedType`, naming its type.
Decoding stores into a destination of the type read; what a failure leaves there depends on the
codec (`Codec.unmarshal`).
Parquet also takes lists of entities of one kind, which it writes as the rows of one table. What
parquet writes is a table, kept here as its columns and rows; reading it back, as the same kind
or another, follows the rules for reading a file, and reading a file reads its rows first.
-/

namespace MarketData

/-- A wire format. -/
inductive Format where
  /-- Protocol buffers. -/
  | protobuf
  /-- Borsh. -/
  | borsh
  /-- Parquet tables. -/
  | parquet
  /-- JSON text. -/
  | json
  deriving DecidableEq, Repr

namespace Format

/-- The name of a format. -/
def name : Format → String
  | .protobuf => "protobuf"
  | .borsh => "borsh"
  | .parquet => "parquet"
  | .json => "json"

/-- All formats, in the order they are listed. -/
def all : List Format := [.protobuf, .borsh, .parquet, .json]

/-- Reads a format name: case and surrounding blanks are ignored, and the short names `proto`,
`pb` and `parq` are accepted. -/
def parse (text : Bytes) : Except Failure Format :=
  let key := text.trimBlank.toLower
  if key == Bytes.ofString "protobuf" || key == Bytes.ofString "proto" || key == Bytes.ofString "pb"
  then .ok .protobuf
  else if key == Bytes.ofString "borsh" then .ok .borsh
  else if key == Bytes.ofString "parquet" || key == Bytes.ofString "parq" then .ok .parquet
  else if key == Bytes.ofString "json" then .ok .json
  else .error (.plain s!"unknown format {text.quoted}")

end Format

/-- The compression of parquet pages. -/
inductive Compression where
  /-- No compression. -/
  | uncompressed
  /-- Snappy. -/
  | snappy
  /-- Gzip. -/
  | gzip
  deriving DecidableEq, Repr

namespace Compression

/-- The name of a compression. -/
def name : Compression → String
  | .uncompressed => "UNCOMPRESSED"
  | .snappy => "SNAPPY"
  | .gzip => "GZIP"

/-- Reads a compression name, ignoring case and surrounding blanks; the empty name is snappy. -/
def parse (text : Bytes) : Except Failure Compression :=
  let key := text.trimBlank.toLower
  if key == Bytes.ofString "snappy" || key.isEmpty then .ok .snappy
  else if key == Bytes.ofString "gzip" then .ok .gzip
  else if key == Bytes.ofString "none" || key == Bytes.ofString "uncompressed" then .ok .uncompressed
  else .error (.plain s!"unsupported parquet compression {text.quoted}")

end Compression

/-- The settings codecs are looked up with. -/
structure Settings where
  /-- The parquet compression, by name. -/
  compression : Bytes := []
  /-- The JSON indent; empty for compact text. -/
  indent : String := ""

/-- A format with its settings. -/
inductive Codec where
  /-- Protobuf. -/
  | protobuf
  /-- Borsh. -/
  | borsh
  /-- Parquet with a compression. -/
  | parquet (compression : Compression)
  /-- JSON with an indent. -/
  | json (indent : String)

/-- What an encoder produced. -/
inductive Encoded where
  /-- Bytes. -/
  | bytes (b : Bytes)
  /-- Text. -/
  | text (s : String)
  /-- The rows of a table, with the columns they were written in. -/
  | rows (columns : List Parquet.Column) (rs : List Parquet.Row)

/-- A value handed to an encoder. -/
inductive Subject where
  /-- An entity. -/
  | entity (e : Entity)
  /-- A list of entities of one kind. -/
  | batch (k : EntityKind) (es : List k.Carrier)
  /-- A part of an entity. -/
  | part (p : Part)

/-- The type of a subject. -/
def Subject.type : Subject → ValueType
  | .entity e => .entity e.kind
  | .batch k _ => .list k
  | .part p => .part p

/-- What a decoder produced. -/
inductive Decoded where
  /-- One entity. -/
  | one (e : Entity)
  /-- A list of entities of one kind. -/
  | many (k : EntityKind) (es : List k.Carrier)

/-- The value a decoder produced, as a value handed around. -/
def Decoded.subject : Decoded → Subject
  | .one e => .entity e
  | .many k es => .batch k es

/-- A fresh value of a type, as `new` makes it: the empty entity of a kind, or no entities. -/
def ValueType.fresh : ValueType → Subject
  | .entity k => .entity ⟨k, k.empty⟩
  | .list k => .batch k []
  | .part p => .part p

namespace Codec

/-- The format of a codec. -/
def format : Codec → Format
  | .protobuf => .protobuf
  | .borsh => .borsh
  | .parquet _ => .parquet
  | .json _ => .json

/-- The codecs of all formats under the given settings; a bad compression fails. -/
def all (s : Settings) : Except Failure (List Codec) := do
  let c ← Compression.parse s.compression
  pure [.protobuf, .borsh, .parquet c, .json s.indent]

/-- Looks up the codec of a format name, taken exactly; the settings are checked first. -/
def lookup (name : Bytes) (s : Settings) : Except Failure Codec := do
  let codecs ← all s
  match codecs.find? fun c => Bytes.ofString c.format.name == name with
  | some c => pure c
  | none => throw (.plain s!"format {name.quoted} is not built into this binary")

/-- The codec of a format under the given settings. -/
def ofFormat (f : Format) (s : Settings) : Except Failure Codec := lookup (Bytes.ofString f.name) s

/-- The failure of a codec handed a value it does not take. -/
def unsupported (c : Codec) (t : String) : Failure :=
  .coded .unsupportedType s!"{c.format.name}: cannot encode {t}"

/-- Encodes a subject. -/
def encode (c : Codec) (s : Subject) : Except Failure Encoded :=
  match c, s with
  | .protobuf, .entity e => .ok (.bytes (Protobuf.encode e))
  | .borsh, .entity e => (Borsh.encode e).map .bytes
  | .json indent, .entity e => (Json.encode indent e).map .text
  | .parquet _, .entity e => .ok (.rows (Parquet.columns e.kind) [Parquet.encodeRow e])
  | .parquet _, .batch k es =>
    .ok (.rows (Parquet.columns k) (es.map fun v => Parquet.encodeRow ⟨k, v⟩))
  | c, s => .error (c.unsupported (s.type.describe false))

/-- The rows of an encoding or of file bytes, read as a table of a kind. -/
def rowsOf (k : EntityKind) : Encoded → Except Failure (List Parquet.Row)
  | .rows columns rs => Parquet.readTable (Parquet.columns k) columns rs
  | .bytes b => Parquet.readFile (Parquet.columns k) b
  | .text s => Parquet.readFile (Parquet.columns k) (Bytes.ofString s)

/-- The bytes of an encoding. -/
def bytesOf : Encoded → Bytes
  | .bytes b => b
  | .text s => Bytes.ofString s
  | .rows _ _ => []

/-- Decodes into a value of a type, always passed by reference. -/
def decode (c : Codec) (target : ValueType) (data : Encoded) : Except Failure Decoded :=
  match c, target with
  | .protobuf, .entity k => (Protobuf.decode k (bytesOf data)).map fun v => .one ⟨k, v⟩
  | .borsh, .entity k => (Borsh.decode k (bytesOf data)).map fun v => .one ⟨k, v⟩
  | .json _, .entity k => (Json.decode k (bytesOf data)).map fun v => .one ⟨k, v⟩
  | .parquet _, .entity k => do
    let rows ← rowsOf k data
    match rows with
    | [row] => pure (.one ⟨k, ← Parquet.decodeRow k row⟩)
    | _ => throw (.coded .malformedPayload s!"parquet: want 1 row, file has {rows.length}")
  | .parquet _, .list k => do
    let rows ← rowsOf k data
    let es ← rows.zipIdx.mapM fun (row, i) => Failure.wrap s!"row {i}" (Parquet.decodeRow k row)
    pure (.many k es)
  | c, t => .error (c.unsupported (t.describe true))

/-- What a failed decode leaves in its destination. The protobuf codec stores what its decoder
returns, and its decoders return the empty entity of the kind along with their failure. Borsh
stores a value only once the whole input is read, JSON decodes into a fresh value and parquet
stores only once every row is read; a destination of a type the codec does not take is never
stored into. -/
def leftOnFailure : Codec → Subject → Subject
  | .protobuf, .entity e => .entity ⟨e.kind, e.kind.empty⟩
  | _, dst => dst

/-- Decodes into a destination, as `Unmarshal(data, &dst)` does: the failure, if any, and what
the destination holds afterwards. A decode that succeeds stores its whole result. -/
def unmarshal (c : Codec) (data : Encoded) (dst : Subject) : Option Failure × Subject :=
  match c.decode dst.type data with
  | .ok d => (none, d.subject)
  | .error f => (some f, c.leftOnFailure dst)

end Codec

end MarketData
