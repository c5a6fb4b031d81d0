import MarketData.Config
import MarketData.Schema.Snapshot
import MarketData.Schema.Evolution
import MarketData.Codec
import MarketData.Migration

/-!
The command line.

`marketmodel [-config path] <command> [flags]` reads the configuration (a missing default file
gives the defaults), then runs one command:

* `formats` lists the formats, marking the configured default;
* `fieldids` prints the snapshot of the live field tables;
* `check [-snapshot path]` checks the live tables against a snapshot, the published one when
  the path is empty;
* `convert -entity E [-from F] [-to T] [-in path] [-out path]` re-encodes one entity;
* `migrate -entity E [-from F] [-to T] [-in path] [-out path] [-publisher P] [-timestamp ms]`
  moves one entity to the other generation; depth readings made from legacy ones get the
  timestamp given, 0 when none is.

Flags are written `-name value` or `-name=value`; a path `-` or empty means standard input or
output. A failure is written to standard error and ends the program with status 1.
-/

namespace MarketData.Cli

/-- The text shown for a command line that names no known command. -/
def usage : String :=
  "usage: marketmodel [-config path] <command> [flags]\n\ncommands:\n" ++
  "  formats    list the formats compiled into this binary\n" ++
  "  fieldids   print the field identifier snapshot of every entity\n" ++
  "  check      verify the tables against the published snapshot\n" ++
  "  convert    re-encode one entity in another format\n" ++
  "  migrate    convert an entity to the other schema generation\n" ++
  "  export     write entities to a parquet table with metadata\n"

/-- The configuration file read when none is named. -/
def defaultConfigPath : String := "config/config.yml"

/-- Splits flags from the other arguments: `-name value`, `-name=value`, or `--name` alike,
up to the first argument that is no flag. -/
def splitFlags : List String → List (String × String) × List String
  | [] => ([], [])
  | a :: rest =>
    if a.startsWith "-" && a.length > 1 then
      let name := (a.dropWhile (· = '-')).toString
      match name.splitOn "=" with
      | [n] =>
        match rest with
        | v :: more =>
          let (fs, args) := splitFlags more
          ((n, v) :: fs, args)
        | [] => ([(n, "")], [])
      | n :: vs =>
        let (fs, args) := splitFlags rest
        ((n, "=".intercalate vs) :: fs, args)
      | [] => ([], a :: rest)
    else ([], a :: rest)

/-- The value of a flag, or a default. -/
def flag (fs : List (String × String)) (name default : String) : String := (fs.lookup name).getD default

/-- The lines `formats` prints. -/
def formatLines (c : Config) : List String :=
  Format.all.map fun f => if f = c.format then f.name ++ " (default)" else f.name

/-- The codec of a format flag; empty means the configured default. -/
def codecOf (c : Config) (name : String) : Except Failure Codec := do
  let f ← if name.isEmpty then pure c.format else Format.parse (Bytes.ofString name)
  Codec.ofFormat f c.settings

/-- Decodes one entity of a kind named by `entity` from bytes. -/
def decodeEntity (c : Config) (entity source : String) (data : Bytes) : Except Failure Entity := do
  let k ← EntityKind.lookup (Bytes.ofString entity)
  let codec ← codecOf c source
  match ← Failure.wrap s!"failed to decode {k.name} as {codec.format.name}" (codec.decode (.entity k) (.bytes data)) with
  | .one e => pure e
  | .many _ _ => throw (.plain "expected one entity")

/-- Encodes an entity in the format named by `target`. -/
def encodeEntity (c : Config) (e : Entity) (target : String) : Except Failure Bytes := do
  let codec ← codecOf c target
  match ← codec.encode (.entity e) with
  | .rows _ _ => throw (.plain s!"{codec.format.name} output is a table, not a stream")
  | out => pure (Codec.bytesOf out)

/-- The text of a failure. -/
def failureText (f : Failure) : String := (f.message?).getD f.kindName

/-- Reads the input of a command: standard input for `-` or an empty path. -/
def readInput (path : String) : IO Bytes := do
  if path.isEmpty || path = "-" then
    return Bytes.ofByteArray (← (← IO.getStdin).readBinToEnd)
  else
    return Bytes.ofByteArray (← IO.FS.readBinFile path)

/-- Writes the output of a command: standard output for `-` or an empty path. -/
def writeOutput (path : String) (data : Bytes) : IO Unit := do
  if path.isEmpty || path = "-" then
    let out ← IO.getStdout
    out.write (Bytes.toByteArray data)
    out.flush
  else IO.FS.writeBinFile path (Bytes.toByteArray data)

/-- Fails the command with a message. -/
def failWith {α : Type} (why : String) : IO α := throw (IO.userError why)

/-- Takes the value of a library step, or fails the command. -/
def orFail {α : Type} (x : Except Failure α) : IO α :=
  match x with
  | .ok a => pure a
  | .error f => failWith (failureText f)

/-- Reads the configuration at a path. -/
def loadConfig (path : String) : IO Config := do
  let text ← try IO.FS.readFile path catch e =>
    if path = defaultConfigPath then pure "" else failWith s!"failed to read config file: {e}"
  match Config.parse text with
  | .ok c => pure c
  | .error f => failWith ("failed to load configuration: " ++ failureText f)

/-- Runs a command. -/
def run (c : Config) (command : String) (args : List String) : IO Unit := do
  let (fs, _) := splitFlags args
  match command with
  | "formats" => for line in formatLines c do IO.println line
  | "fieldids" =>
    match Schema.live.validate with
    | .error p => failWith p.message
    | .ok () => writeOutput "-" (Bytes.ofString Schema.live.snapshot)
  | "check" =>
    match Schema.live.validate with
    | .error p => failWith p.message
    | .ok () =>
      let path := flag fs "snapshot" c.snapshot
      let prev ← if path.isEmpty then pure Schema.published else do
        let text ← try IO.FS.readFile path catch e => failWith s!"failed to read snapshot file: {e}"
        orFail (Schema.Catalog.load text)
      match Schema.checkEvolution prev Schema.live with
      | [] => IO.println s!"ok: {Schema.live.tables.length} entities"
      | vs => failWith ("field identifiers changed incompatibly:\n" ++ "\n".intercalate (vs.map (·.text)))
  | "convert" =>
    let data ← readInput (flag fs "in" "-")
    let e ← orFail (decodeEntity c (flag fs "entity" "") (flag fs "from" "") data)
    writeOutput (flag fs "out" "-") (← orFail (encodeEntity c e (flag fs "to" "")))
  | "migrate" =>
    let data ← readInput (flag fs "in" "-")
    let e ← orFail (decodeEntity c (flag fs "entity" "") (flag fs "from" "") data)
    let stamp ← match (fs.lookup "timestamp").map String.toInt? with
      | some (some t) => pure t
      | some none => failWith "invalid value for flag -timestamp"
      | none => pure 0
    let opts : Migration.Options := ⟨Bytes.ofString (flag fs "publisher" c.publisher), Int64.ofInt stamp⟩
    let m ← orFail (Failure.wrap s!"failed to migrate {e.kind.name}" (Migration.migrate (.entity e) false opts))
    writeOutput (flag fs "out" "-") (← orFail (encodeEntity c m (flag fs "to" "")))
  | "export" => failWith "export: parquet codec cannot write files"
  | _ =>
    IO.eprint usage
    failWith s!"unknown command {quoteText command}"

end MarketData.Cli

open MarketData.Cli in
/-- Runs the command line. -/
def main (args : List String) : IO UInt32 := do
  let (fs, rest) := splitFlags args
  let outcome ← (do
    match rest with
    | [] =>
      IO.eprint usage
      failWith "no command given"
    | command :: more =>
      let c ← loadConfig (flag fs "config" defaultConfigPath)
      run c command more : IO Unit).toBaseIO
  match outcome with
  | .ok () => pure 0
  | .error e =>
    IO.eprintln s!"error: {e}"
    pure 1
