import MarketData.Codec
import MarketData.Text.Case
import MarketData.Number.Notation
import MarketData.Yaml.Decode

/-!
The configuration of the tools.

A configuration is read from YAML over the defaults: only the keys given change a setting, and
unknown keys are ignored. The settings are grouped under `marketmodel` (name, version), `codecs`
(default format, parquet compression and parallelism, json indent), `bridge` (publisher),
`catalog` (snapshot), `export` (dir, location, catalog dir) and `logging` (level, format,
output, maximum age, extra fields).

A configuration read must then pass these checks, in order: it has a name and a version; its
default format is a known format; its compression, in lowercase, is empty, `snappy`, `gzip`,
`none` or `uncompressed`; its parallelism is not negative; its json indent holds only spaces
and tabs.

The extra logging fields are values of any type; `Config.fieldText` writes one the way the log
shows it: lists in brackets and mappings as `map[k:v ...]` with sorted keys, items separated by
spaces, nothing quoted.
-/

namespace MarketData

open Yaml

/-- The settings of the tools. -/
structure Config where
  /-- The name of the tool. -/
  name : String
  /-- Its version. -/
  version : String
  /-- The name of the default format. -/
  defaultFormat : String
  /-- The parquet compression. -/
  compression : String
  /-- How many parquet writers run at once. -/
  parallelism : Int
  /-- The json indent. -/
  indent : String
  /-- The publisher the bridge writes. -/
  publisher : String
  /-- Where the field number snapshot lives. -/
  snapshot : String
  /-- Where exports go. -/
  exportDir : String
  /-- Where exports are published. -/
  exportLocation : String
  /-- Where the exported catalog goes. -/
  catalogDir : String
  /-- The log level. -/
  logLevel : String
  /-- The log format. -/
  logFormat : String
  /-- Where the log goes. -/
  logOutput : String
  /-- How many days logs are kept. -/
  logMaxAge : Int
  /-- Extra fields of every log line. -/
  logFields : List (String × Value)
  deriving Inhabited

namespace Config

/-- The settings used when none are given. -/
def defaults : Config where
  name := "marketmodel"
  version := "1.0"
  defaultFormat := Format.protobuf.name
  compression := "snappy"
  parallelism := 4
  indent := ""
  publisher := ""
  snapshot := "catalog/fieldids.yaml"
  exportDir := "export"
  exportLocation := ""
  catalogDir := "export/catalog"
  logLevel := "info"
  logFormat := "json"
  logOutput := "stderr"
  logMaxAge := 0
  logFields := []

/-- A group of settings under a key. -/
def group (key : String) (members : List (Decoder.Member Config)) : Decoder.Member Config :=
  .of key (Decoder.record members) id fun _ c => c

/-- Reads the settings of a YAML document into a configuration. -/
def decoder : Decoder Config := Decoder.record [
  group "marketmodel" [
    .of "name" Decoder.text (·.name) fun c v => { c with name := v },
    .of "version" Decoder.text (·.version) fun c v => { c with version := v }],
  group "codecs" [
    .of "default_format" Decoder.text (·.defaultFormat) fun c v => { c with defaultFormat := v },
    group "parquet" [
      .of "compression" Decoder.text (·.compression) fun c v => { c with compression := v },
      .of "parallelism" Decoder.integer (·.parallelism) fun c v => { c with parallelism := v }],
    group "json" [
      .of "indent" Decoder.text (·.indent) fun c v => { c with indent := v }]],
  group "bridge" [
    .of "publisher" Decoder.text (·.publisher) fun c v => { c with publisher := v }],
  group "catalog" [
    .of "snapshot" Decoder.text (·.snapshot) fun c v => { c with snapshot := v }],
  group "export" [
    .of "dir" Decoder.text (·.exportDir) fun c v => { c with exportDir := v },
    .of "location" Decoder.text (·.exportLocation) fun c v => { c with exportLocation := v },
    .of "catalog_dir" Decoder.text (·.catalogDir) fun c v => { c with catalogDir := v }],
  group "logging" [
    .of "level" Decoder.text (·.logLevel) fun c v => { c with logLevel := v },
    .of "format" Decoder.text (·.logFormat) fun c v => { c with logFormat := v },
    .of "output" Decoder.text (·.logOutput) fun c v => { c with logOutput := v },
    .of "max_age" Decoder.integer (·.logMaxAge) fun c v => { c with logMaxAge := v },
    .of "fields" Decoder.textMap (·.logFields) fun c v => { c with logFields := v }]]

/-- The compressions a configuration may name, in lowercase. -/
def compressions : List String := ["", "snappy", "gzip", "none", "uncompressed"]

/-- The first check a configuration fails, if any. -/
def check (c : Config) : Except String Unit := do
  if c.name.isEmpty then throw "marketmodel.name is required"
  if c.version.isEmpty then throw "marketmodel.version is required"
  match Format.parse (Bytes.ofString c.defaultFormat) with
  | .error f => throw ("codecs.default_format: " ++ (f.message?.getD ""))
  | .ok _ => pure ()
  let lower := Utf8.toStringLossy (Bytes.ofString c.compression).toLower
  if !compressions.contains lower then
    throw s!"codecs.parquet.compression '{c.compression}' is not supported"
  if c.parallelism < 0 then throw "codecs.parquet.parallelism must not be negative"
  if !c.indent.all fun ch => ch = ' ' || ch = '\t' then
    throw "codecs.json.indent may only contain spaces and tabs"

/-- Reads a configuration from YAML text over the defaults and checks it. An empty stream gives
the defaults. -/
def parse (text : String) : Except Failure Config :=
  match decodeFirst decoder text defaults with
  | .error _ => .error (.plain "failed to parse config file")
  | .ok c =>
    let c := c.getD defaults
    match c.check with
    | .error why => .error (.plain ("configuration validation failed: " ++ why))
    | .ok () => .ok c

/-- The default format, read. -/
def format (c : Config) : Format :=
  match Format.parse (Bytes.ofString c.defaultFormat) with
  | .ok f => f
  | .error _ => .protobuf

/-- The settings codecs are looked up with: the compression and the json indent. -/
def settings (c : Config) : Settings := ⟨Bytes.ofString c.compression, c.indent⟩

/-- Floats in log fields: the shortest digits, positional for decimal exponents from -4 to 5,
else with an exponent of at least two digits. -/
def floatNotation : Notation := ⟨-4, 5, 2, 2⟩

/-- The text of a float in a log field. -/
def floatText (x : F64) : String :=
  if x.isNaN then "NaN"
  else if x.isInf then (if x.negative then "-Inf" else "+Inf")
  else floatNotation.render x

/-- The rank of a key's kind in the order of keys. Keys of different kinds are ordered by where
their types are laid out, which is by the type names: null first, then booleans (`bool`), floats
(`float64`), integers (`int`), text (`string`) and unsigned integers (`uint64`). -/
def keyRank : Value → Nat
  | .null => 0
  | .bool _ => 1
  | .float _ => 2
  | .int _ => 3
  | .text _ => 4
  | .uint _ => 5
  | _ => 6

/-- The order of keys of a mapping: by kind, then by value; NaN before other floats. -/
def keyLess (a b : Value) : Bool :=
  match a, b with
  | .bool x, .bool y => !x && y
  | .int x, .int y => x < y
  | .uint x, .uint y => x < y
  | .float x, .float y =>
    if x.isNaN then !y.isNaN
    else if y.isNaN then false
    else x.lt y
  | .text x, .text y => x < y
  | _, _ => keyRank a < keyRank b

mutual

/-- The text of a log field value. -/
def fieldText : Value → String
  | .null => "<nil>"
  | .bool b => if b then "true" else "false"
  | .int i => toString i
  | .uint n => toString n
  | .float x => floatText x
  | .text s => s
  | .list xs => "[" ++ " ".intercalate (itemTexts xs) ++ "]"
  | .textMap es =>
    let sorted := (textEntryTexts es).mergeSort fun a b => a.1 ≤ b.1
    "map[" ++ " ".intercalate (sorted.map fun (k, v) => k ++ ":" ++ v) ++ "]"
  | .anyMap es =>
    let sorted := (anyEntryTexts es).mergeSort fun a b => !keyLess b.1 a.1
    "map[" ++ " ".intercalate (sorted.map fun (_, k, v) => k ++ ":" ++ v) ++ "]"

/-- The texts of list items. -/
def itemTexts : List Value → List String
  | [] => []
  | x :: xs => fieldText x :: itemTexts xs

/-- The keys and value texts of a text mapping. -/
def textEntryTexts : List (String × Value) → List (String × String)
  | [] => []
  | (k, v) :: rest => (k, fieldText v) :: textEntryTexts rest

/-- The keys, key texts and value texts of a mapping with dynamic keys. -/
def anyEntryTexts : List (Value × Value) → List (Value × String × String)
  | [] => []
  | (k, v) :: rest => (k, fieldText k, fieldText v) :: anyEntryTexts rest

end

end Config

end MarketData
