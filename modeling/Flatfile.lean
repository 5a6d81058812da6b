import Flatfile.Charset.Basic
import Flatfile.Charset.Ebcdic
import Flatfile.Codec.Args
import Flatfile.Codec.BinaryInteger
import Flatfile.Codec.Column
import Flatfile.Codec.Converters
import Flatfile.Codec.DataType
import Flatfile.Codec.DecimalDigits
import Flatfile.Codec.FixedNumber
import Flatfile.Codec.FixedText
import Flatfile.Codec.NumericFormat
import Flatfile.Codec.Packed
import Flatfile.Codec.RawBytes
import Flatfile.Codec.Registry
import Flatfile.Codec.Sign
import Flatfile.Codec.Zoned
import Flatfile.Decimal.Basic
import Flatfile.Decimal.Binary
import Flatfile.Decimal.Notation
import Flatfile.Decimal.Rounding
import Flatfile.Defaults.Basic
import Flatfile.Defaults.Toml
import Flatfile.Delimited.Blank
import Flatfile.Delimited.Line
import Flatfile.Delimited.Record
import Flatfile.Delimited.Scan
import Flatfile.Delimited.Title
import Flatfile.Dump
import Flatfile.Error.Convert
import Flatfile.Error.Data
import Flatfile.Error.Format
import Flatfile.Error.Syntax
import Flatfile.Fixed.Frame
import Flatfile.Fixed.Record
import Flatfile.Formatter.Basic
import Flatfile.Formatter.Read
import Flatfile.Formatter.Session
import Flatfile.Formatter.Write
import Flatfile.Layout.Basic
import Flatfile.Layout.Catalog
import Flatfile.Layout.FileType
import Flatfile.Layout.Line
import Flatfile.Layout.Literal
import Flatfile.Layout.Parser
import Flatfile.Layout.Scan
import Flatfile.Layout.Token
import Flatfile.Main
import Flatfile.Outcome
import Flatfile.Record.Basic
import Flatfile.Record.Predicate
import Flatfile.Schema.Basic
import Flatfile.Schema.Cache
import Flatfile.Schema.File
import Flatfile.Schema.Link
import Flatfile.Schema.Select
import Flatfile.Schema.Settings
import Flatfile.Schema.Traverse
import Flatfile.Store.Basic
import Flatfile.Store.Files
import Flatfile.Store.Writer
import Flatfile.Stream.Source
import Flatfile.Stream.TextStream
import Flatfile.Text.Blank
import Flatfile.Text.Graphic
import Flatfile.Text.Hex
import Flatfile.Text.LetterCase
import Flatfile.Text.LetterCase.Table
import Flatfile.Text.Name
import Flatfile.Text.Natural
import Flatfile.Text.Quoted
import Flatfile.Text.Ranges
import Flatfile.Text.Search
import Flatfile.Text.Utf8
import Flatfile.Tool.CheckLayout
import Flatfile.Tool.DecodeRecords
import Flatfile.Tool.Report
import Flatfile.Value
import Flatfile.Word
import Flatfile.Proofs.Outcome
import Flatfile.Proofs.Schema.Linked
import Flatfile.Proofs.Schema.Fields
import Flatfile.Proofs.Fixed.Slots
import Flatfile.Proofs.Fixed.Unused
import Flatfile.Proofs.Fixed.DecimalArrays
import Flatfile.Proofs.Schema.Fillers
import Flatfile.Proofs.Schema.Tiling
import Flatfile.Proofs.Delimited.Scan
import Flatfile.Proofs.Delimited.RoundTrip
import Flatfile.Proofs.Layout.Names
import Flatfile.Proofs.Schema.Traverse
import Flatfile.Proofs.Fixed.Slices
import Flatfile.Proofs.Fixed.Reach
import Flatfile.Proofs.Stream.Decoding
import Flatfile.Proofs.Formatter.Calls
import Flatfile.Proofs.Fixed.Reading
import Flatfile.Proofs.Delimited.Segments
import Flatfile.Proofs.Layout.Derivation
import Flatfile.Proofs.Layout.Reading
import Flatfile.Proofs.Delimited.Limit
import Flatfile.Proofs.Formatter.Numbering
import Flatfile.Proofs.Schema.Select
import Flatfile.Proofs.Schema.Dispatch
import Flatfile.Proofs.Store.Receiving
import Flatfile.Proofs.Stream.Rendering
import Flatfile.Proofs.Delimited.Written
import Flatfile.Proofs.Formatter.Rereading
import Flatfile.Proofs.Formatter.Requests
import Flatfile.Proofs.Formatter.Titles
import Flatfile.Proofs.Formatter.Emission
import Flatfile.Proofs.Text.LetterCase
import Flatfile.Proofs.Schema.Conditions
import Flatfile.Proofs.Schema.Relink
import Flatfile.Proofs.Stream.Rewinding
import Flatfile.Proofs.Delimited.Consumption
import Flatfile.Proofs.Formatter.LookAhead
import Flatfile.Proofs.Tool.Progress
import Flatfile.Proofs.Decimal.Rounded
import Flatfile.Proofs.Decimal.Spelling
import Flatfile.Proofs.Codec.Digits
import Flatfile.Proofs.Codec.SignedDecimal
import Flatfile.Proofs.Codec.SignedField
import Flatfile.Proofs.Codec.Legible
import Flatfile.Proofs.Codec.Canonical
import Flatfile.Proofs.Lookup
import Flatfile.Proofs.Record.Aliases
import Flatfile.Proofs.Schema.Caching
import Flatfile.Proofs.Guarded
import Flatfile.Proofs.Codec.BuiltIn
import Flatfile.Proofs.Charset.Ascii
import Flatfile.Proofs.Codec.Blank
import Flatfile.Proofs.Codec.WrittenNumber
import Flatfile.Proofs.Codec.TwosComplement
import Flatfile.Proofs.Codec.Slots
import Flatfile.Proofs.Codec.SpelledDecimal
import Flatfile.Proofs.Formatter.GuardedReading
import Flatfile.Proofs.Formatter.Ranges
import Flatfile.Proofs.Delimited.Length
import Flatfile.Proofs.Delimited.Columns
import Flatfile.Proofs.Layout.Partition
import Flatfile.Proofs.Schema.Extension
import Flatfile.Proofs.Codec.DigitLimits
import Flatfile.Proofs.Codec.Overflow
import Flatfile.Proofs.Codec.ShiftedNumber
import Flatfile.Proofs.Codec.PaddedText
import Flatfile.Proofs.Decimal.NormalForm
import Flatfile.Proofs.Record.NumericConditions
import Flatfile.Proofs.Schema.Faults
import Flatfile.Proofs.Schema.WellFormed
import Flatfile.Proofs.Layout.Places
import Flatfile.Proofs.Schema.Places
import Flatfile.Proofs.Layout.Renumbering
import Flatfile.Proofs.Layout.Reordering
import Flatfile.Proofs.Schema.Unplaced
import Flatfile.Proofs.Schema.Directives
import Flatfile.Proofs.Schema.Reordering
import Flatfile.Proofs.Codec.Translation
import Flatfile.Proofs.Stream.Primitives
import Flatfile.Proofs.Schema.Substitution
import Flatfile.Proofs.Tool.Shadowing
