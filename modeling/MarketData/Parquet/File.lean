import MarketData.Parquet.Table
import MarketData.Parquet.Metadata
import MarketData.Parquet.Levels
import MarketData.Compression.Snappy
import MarketData.Compression.Gzip

/-!
Reading columnar files.

A file is read against the columns of the table expected in it. Its schema must have at least
as many elements as the expected table has columns and a root, every column chunk must carry
its metadata, and the first row group must hold a chunk for every expected column, found by
name. A file that announces no rows then reads as no rows. Otherwise each expected column is
read from its chunk in every row group, and the first rows up to the announced count are kept;
the columns must agree on the number of rows and carry the expected physical types.

A chunk is read page by page from its first page until its value count is reached. A page is
compressed as the chunk says: not at all, with snappy, or with gzip. A data page holds, for a
repeated column, its repetition and then its definition levels, each of width one; then its
values in plain encoding, one for each full definition level: INT32 and INT64 as little-endian
words, DOUBLE as eight bytes, BYTE_ARRAY as a little-endian length and the bytes. A repetition
level of zero starts a row. Dictionary pages are skipped; other page types are refused.

Anything else that goes wrong makes the file unreadable, with no detail kept.

Tables that this library writes are read by the same rules, matched by column name.
-/

namespace MarketData.Parquet

/-- The number of a physical type in file metadata. -/
def Physical.code : Physical → Int
  | .int32 => 1
  | .int64 => 2
  | .double => 5
  | .byteArray => 6

/-- One entry of a column: its repetition level and, when fully defined, its value. -/
structure Entry where
  /-- The repetition level; zero starts a row. -/
  repetition : Nat
  /-- The value, when the definition level is full. -/
  value : Option Cell

/-- `count` values in plain encoding of a physical type. -/
def plainValues (type : Int) : Nat → Bytes → Option (List Cell × Bytes)
  | 0, input => some ([], input)
  | count + 1, input => do
    let (cell, rest) ← if type = 1 then do
        let (w, rest) ← takeExact 4 input
        pure (Cell.int32 (Bytes.readLittleEndian w).toUInt32, rest)
      else if type = 2 then do
        let (w, rest) ← takeExact 8 input
        pure (Cell.int64 (Bytes.readLittleEndian w).toUInt64, rest)
      else if type = 5 then do
        let (w, rest) ← takeExact 8 input
        pure (Cell.double ⟨(Bytes.readLittleEndian w).toUInt64⟩, rest)
      else if type = 6 then do
        let (len, rest) ← takeExact 4 input
        let (b, rest) ← takeExact (Bytes.readLittleEndian len) rest
        pure (Cell.bytes b, rest)
      else none
    let (cells, rest) ← plainValues type count rest
    pure (cell :: cells, rest)

/-- The bytes of a page after decompression by a chunk's codec. -/
def uncompress (codec : Int) (data : Bytes) : Option Bytes :=
  if codec = 0 then some data
  else if codec = 1 then Snappy.decode data
  else if codec = 2 then Gzip.decompress data
  else none

/-- The entries of a data page of a column. -/
def dataPage (column : Column) (type : Int) (header : DataPageHeader) (body : Bytes) :
    Option (List Entry) := do
  if header.numValues < 0 then none
  let n := header.numValues.toNat
  let maxLevel := if column.repeated then 1 else 0
  let (repetitions, body) ← if maxLevel = 0 then pure (List.replicate n 0, body) else do
    if header.repetitionEncoding ≠ 3 then none
    levels (levelWidth maxLevel) n body
  let (definitions, body) ← if maxLevel = 0 then pure (List.replicate n 0, body) else do
    if header.definitionEncoding ≠ 3 then none
    levels (levelWidth maxLevel) n body
  if repetitions.length < n || definitions.length < n then none
  if header.encoding ≠ 0 then none
  let full := (definitions.filter (· = maxLevel)).length
  let (values, _) ← plainValues type full body
  let rec pair : List Nat → List Nat → List Cell → List Entry
    | r :: rs, d :: ds, vs =>
      if d = maxLevel then
        match vs with
        | v :: vs => ⟨r, some v⟩ :: pair rs ds vs
        | [] => ⟨r, none⟩ :: pair rs ds []
      else ⟨r, none⟩ :: pair rs ds vs
    | _, _, _ => []
  pure (pair repetitions definitions values)

/-- The entries of the pages of a chunk from `position`, until `read` reaches the chunk's
value count. -/
def pages (column : Column) (chunk : ChunkMeta) (data : Bytes) :
    Nat → Nat → Int → Option (List Entry)
  | 0, _, _ => none
  | fuel + 1, position, read =>
    if read ≥ chunk.numValues then some []
    else do
      let input := data.drop position
      let (fs, afterHeader) ← Thrift.readStruct input
      let header ← PageHeader.read fs
      if header.compressedSize < 0 then none
      let (compressed, _) ← takeExact header.compressedSize.toNat afterHeader
      let next := position + (input.length - afterHeader.length) + header.compressedSize.toNat
      if header.type = 2 then pages column chunk data fuel next read
      else if header.type = 0 then do
        let dataHeader ← header.dataPage
        let body ← uncompress chunk.codec compressed
        let entries ← dataPage column chunk.type dataHeader body
        let rest ← pages column chunk data fuel next (read + dataHeader.numValues)
        pure (entries ++ rest)
      else none

/-- The entries of a column chunk. -/
def chunkEntries (column : Column) (chunk : ChunkMeta) (data : Bytes) : Option (List Entry) := do
  let start : Int := match chunk.dictionaryPageOffset with
    | some d => if d < chunk.dataPageOffset then d else chunk.dataPageOffset
    | none => chunk.dataPageOffset
  if start < 0 || start > data.length then none
  pages column chunk data (data.length + 1) start.toNat 0

theorem length_dropWhile_le {α : Type} (p : α → Bool) (l : List α) :
    (l.dropWhile p).length ≤ l.length := by
  induction l with
  | nil => simp
  | cons x xs ih =>
    simp only [List.dropWhile_cons]
    split
    · simp only [List.length_cons]; omega
    · simp

/-- Splits entries into rows, each starting at a repetition level of zero. -/
def splitRows : List Entry → List (List Entry)
  | [] => []
  | e :: rest =>
    let row := e :: rest.takeWhile (·.repetition ≠ 0)
    row :: splitRows (rest.dropWhile (·.repetition ≠ 0))
termination_by entries => entries.length
decreasing_by
  have := length_dropWhile_le (fun x : Entry => x.repetition ≠ 0) rest
  simp only [List.length_cons]
  omega

/-- The cell of a column in a row of entries; the values must have the column's type. -/
def rowCell (column : Column) (row : List Entry) : Option Cell :=
  if column.repeated then do
    let xs ← (row.filterMap (·.value)).mapM fun
      | .double x => some x
      | _ => none
    pure (.doubles xs)
  else
    match row with
    | [⟨_, some c⟩] =>
      match column.physical, c with
      | .byteArray, .bytes _ | .int32, .int32 _ | .int64, .int64 _ | .double, .double _ => some c
      | _, _ => none
    | _ => none

/-- The chunk of a column in a row group, found by name. -/
def RowGroup.chunkOf (g : RowGroup) (column : Column) : Option ChunkMeta :=
  (g.chunks.findSome? fun c =>
    c.metadata.bind fun m => if m.path = [Bytes.ofString column.name] then some m else none)

/-- The cells of a column, one per row, from every row group. -/
def columnCells (footer : Footer) (data : Bytes) (column : Column) : Option (List Cell) := do
  let entries ← footer.rowGroups.flatMapM fun g => do
    let chunk ← g.chunkOf column
    if chunk.type ≠ column.physical.code then none
    chunkEntries column chunk data
  (splitRows entries).mapM (rowCell column)

/-- The rows of equal-length columns. -/
def transpose : Nat → List (List Cell) → List Row
  | 0, _ => []
  | n + 1, columns =>
    if columns.any (·.isEmpty) then []
    else columns.map (·.headD (.bytes [])) :: transpose n (columns.map (·.drop 1))

/-- The rows of a file, read against the expected columns. -/
def fileRows (expected : List Column) (data : Bytes) : Option (List Row) := do
  let footer ← Footer.ofFile data
  if footer.schema.length < expected.length + 1 then none
  if footer.rowGroups.any (·.chunks.any (·.metadata.isNone)) then none
  if let some first := footer.rowGroups.head? then
    if expected.any (fun c => (first.chunkOf c).isNone) then none
  if footer.numRows < 0 then none
  if footer.numRows = 0 then return []
  let n := footer.numRows.toNat
  let columns ← expected.mapM fun c => do pure ((← columnCells footer data c).take n)
  let count := (columns.head?.map List.length).getD 0
  if columns.any (·.length ≠ count) then none
  pure (transpose count columns)

/-- The rows of a file, read against the expected columns; a file that cannot be read fails
with no detail. -/
def readFile (expected : List Column) (data : Bytes) : Except Failure (List Row) :=
  match fileRows expected data with
  | some rows => .ok rows
  | none => .error .unreadable

/-- The rows of a table written with some columns, read against the expected columns by the
rules for files: the written schema must be long enough, an empty table reads as no rows, and
otherwise every expected column must have been written, with its type. -/
def readTable (expected written : List Column) (rows : List Row) : Except Failure (List Row) :=
  let index (c : Column) : Option Nat :=
    written.findIdx? fun w => w.name = c.name && w.physical = c.physical && w.repeated = c.repeated
  if written.length < expected.length then .error .unreadable
  else if rows.isEmpty then .ok []
  else
    match expected.mapM index with
    | some positions => .ok (rows.map fun row => positions.map fun i => row.getD i (.bytes []))
    | none => .error .unreadable

end MarketData.Parquet
