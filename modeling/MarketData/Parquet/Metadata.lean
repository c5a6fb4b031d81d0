import MarketData.Thrift.Compact

/-!
The metadata of a columnar file: its footer and the headers of its pages.

The footer lists the schema, a flat list of elements with the root first, the number of rows,
and the row groups; a row group holds one column chunk per column, whose metadata gives the
physical type, the path of the column, the compression, the number of values and where its
pages start. A page header gives the page type, its size before and after compression, and for
a data page the number of values and the encodings of the values and of the levels.

A field that the format requires must be present with its type; otherwise the metadata is not
read. Only the fields that reading rows needs are kept.
-/

namespace MarketData.Parquet

open Thrift

/-- One element of a file's schema. -/
structure SchemaElement where
  /-- The name. -/
  name : Bytes
  deriving Repr

/-- The metadata of one column chunk. -/
structure ChunkMeta where
  /-- The physical type number. -/
  type : Int
  /-- The path of the column below the root. -/
  path : List Bytes
  /-- The compression number. -/
  codec : Int
  /-- The number of values, nulls and list boundaries counted. -/
  numValues : Int
  /-- Where the first data page starts. -/
  dataPageOffset : Int
  /-- Where the dictionary page starts, if there is one. -/
  dictionaryPageOffset : Option Int
  deriving Repr

/-- A column chunk; its metadata may be missing. -/
structure Chunk where
  /-- The metadata. -/
  metadata : Option ChunkMeta
  deriving Repr

/-- A row group. -/
structure RowGroup where
  /-- The column chunks. -/
  chunks : List Chunk
  deriving Repr

/-- The footer of a file. -/
structure Footer where
  /-- The schema elements, root first. -/
  schema : List SchemaElement
  /-- The number of rows. -/
  numRows : Int
  /-- The row groups. -/
  rowGroups : List RowGroup
  deriving Repr

/-- The header of a data page. -/
structure DataPageHeader where
  /-- The number of values, nulls and list boundaries counted. -/
  numValues : Int
  /-- The encoding of the values. -/
  encoding : Int
  /-- The encoding of the definition levels. -/
  definitionEncoding : Int
  /-- The encoding of the repetition levels. -/
  repetitionEncoding : Int
  deriving Repr

/-- The header of a page. -/
structure PageHeader where
  /-- The page type: 0 for a data page, 2 for a dictionary page. -/
  type : Int
  /-- The size of the page after compression. -/
  compressedSize : Int
  /-- The data page header, if present. -/
  dataPage : Option DataPageHeader
  deriving Repr

/-- A list of structs read with a reader for each. -/
def structs {α : Type} (read : List (Int × Value) → Option α) (items : List Value) :
    Option (List α) :=
  items.mapM fun v => v.asStruct >>= read

/-- The list of strings in a field. -/
def strings (items : List Value) : Option (List Bytes) := items.mapM Value.asBinary

namespace SchemaElement

/-- Reads a schema element. -/
def read (fs : List (Int × Value)) : Option SchemaElement := do
  pure { name := ← binary? fs 4 }

end SchemaElement

namespace ChunkMeta

/-- Reads the metadata of a column chunk. -/
def read (fs : List (Int × Value)) : Option ChunkMeta := do
  let type ← int32? fs 1
  let _ ← list? fs 2
  let path ← strings (← list? fs 3)
  let codec ← int32? fs 4
  let numValues ← int64? fs 5
  let _ ← int64? fs 6
  let _ ← int64? fs 7
  let dataPageOffset ← int64? fs 9
  pure { type, path, codec, numValues, dataPageOffset, dictionaryPageOffset := int64? fs 11 }

end ChunkMeta

/-- Reads a column chunk. -/
def Chunk.read (fs : List (Int × Value)) : Option Chunk := do
  let _ ← int64? fs 2
  match struct? fs 3 with
  | some m => pure { metadata := some (← ChunkMeta.read m) }
  | none => pure { metadata := none }

/-- Reads a row group. -/
def RowGroup.read (fs : List (Int × Value)) : Option RowGroup := do
  let chunks ← structs Chunk.read (← list? fs 1)
  let _ ← int64? fs 2
  let _ ← int64? fs 3
  pure { chunks }

/-- Reads a footer. -/
def Footer.read (fs : List (Int × Value)) : Option Footer := do
  let _ ← int32? fs 1
  let schema ← structs SchemaElement.read (← list? fs 2)
  let numRows ← int64? fs 3
  let rowGroups ← structs RowGroup.read (← list? fs 4)
  pure { schema, numRows, rowGroups }

/-- Reads the header of a data page. -/
def DataPageHeader.read (fs : List (Int × Value)) : Option DataPageHeader := do
  pure { numValues := ← int32? fs 1, encoding := ← int32? fs 2,
         definitionEncoding := ← int32? fs 3, repetitionEncoding := ← int32? fs 4 }

/-- Reads a page header. -/
def PageHeader.read (fs : List (Int × Value)) : Option PageHeader := do
  let type ← int32? fs 1
  let _ ← int32? fs 2
  let compressedSize ← int32? fs 3
  let dataPage ← match struct? fs 5 with
    | some h => some <$> DataPageHeader.read h
    | none => pure none
  pure { type, compressedSize, dataPage }

/-- The footer of a file: its length is the little-endian word before the last four bytes,
and it ends there. -/
def Footer.ofFile (data : Bytes) : Option Footer := do
  if data.length < 8 then none
  let size := Bytes.readLittleEndian ((data.drop (data.length - 8)).take 4)
  if data.length < 8 + size then none
  let (fs, _) ← readStruct (data.drop (data.length - 8 - size))
  Footer.read fs

end MarketData.Parquet
