import MarketData.Main
import MarketData.Parquet.TableSchema
import MarketData.Parquet.File
import MarketData.Text.Printable
import MarketData.Proofs.Layout
import MarketData.Proofs.Protobuf.RoundTrip
import MarketData.Proofs.Borsh.Reading
import MarketData.Proofs.Borsh.Writing
import MarketData.Proofs.Borsh.RoundTrip
import MarketData.Proofs.Number.Fields
import MarketData.Proofs.Number.Rounding
import MarketData.Proofs.Number.Shortest
import MarketData.Proofs.Json.Strings
import MarketData.Proofs.Json.Numbers
import MarketData.Proofs.Json.Floats
import MarketData.Proofs.Migration
import MarketData.Proofs.Parquet.RoundTrip
import MarketData.Proofs.Protobuf.Tables
import MarketData.Proofs.Json.Reader
import MarketData.Proofs.Json.Spelling
import MarketData.Proofs.Json.Scalars
import MarketData.Proofs.Number.Numerals
import MarketData.Proofs.Enumeration
import MarketData.Proofs.Number.AmountText
import MarketData.Proofs.Json.Values
import MarketData.Proofs.Json.RoundTrip
import MarketData.Proofs.Sorting.Permutation
import MarketData.Proofs.Schema.Evolution
import MarketData.Proofs.Borsh.Tables
import MarketData.Proofs.Parquet.Columns
import MarketData.Proofs.Protobuf.Walk
import MarketData.Proofs.Protobuf.Grammar
import MarketData.Proofs.Protobuf.Merging
import MarketData.Proofs.Parquet.Faults
import MarketData.Proofs.Yaml.BlockScalars
import MarketData.Proofs.Migration.Failures
import MarketData.Proofs.Number.AmountArithmetic
import MarketData.Proofs.Schema.Unions
import MarketData.Proofs.Text.Pieces
import MarketData.Proofs.Text.UpperCase
import MarketData.Proofs.Pair
import MarketData.Proofs.Config
import MarketData.Proofs.Borsh.Steps
import MarketData.Proofs.Destination
import MarketData.Proofs.Sorting.Merge
import MarketData.Proofs.Sorting.Ordered
import MarketData.Proofs.Schema.Snapshot
