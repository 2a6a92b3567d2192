import Lc3Assembler.CommandLine.Arguments
import Lc3Assembler.CommandLine.Exit
import Lc3Assembler.CommandLine.Footprint
import Lc3Assembler.CommandLine.Request
import Lc3Assembler.CommandLine.Run
import Lc3Assembler.Diagnosis.Cause
import Lc3Assembler.Diagnosis.Code
import Lc3Assembler.Diagnosis.Report
import Lc3Assembler.Directory
import Lc3Assembler.Encoding
import Lc3Assembler.Failure
import Lc3Assembler.Limits
import Lc3Assembler.Listing
import Lc3Assembler.Main
import Lc3Assembler.ObjectFile
import Lc3Assembler.Operand
import Lc3Assembler.Operation
import Lc3Assembler.Operation.Directive
import Lc3Assembler.Operation.Mnemonic
import Lc3Assembler.Operation.Slot
import Lc3Assembler.Program.Call
import Lc3Assembler.Program.Draft
import Lc3Assembler.Program.Dump
import Lc3Assembler.Program.Reader
import Lc3Assembler.Program.Record
import Lc3Assembler.Program.Store
import Lc3Assembler.Proofs.BitFields
import Lc3Assembler.Proofs.ColumnGrammar
import Lc3Assembler.Proofs.Columns
import Lc3Assembler.Proofs.Decoding
import Lc3Assembler.Proofs.DirectoryWrites
import Lc3Assembler.Proofs.Drafts
import Lc3Assembler.Proofs.Emission
import Lc3Assembler.Proofs.EncodingFaults
import Lc3Assembler.Proofs.EntryPoints
import Lc3Assembler.Proofs.ExitStatuses
import Lc3Assembler.Proofs.FieldRanges
import Lc3Assembler.Proofs.Following
import Lc3Assembler.Proofs.HandedPaths
import Lc3Assembler.Proofs.LineEdits
import Lc3Assembler.Proofs.ListingColumns
import Lc3Assembler.Proofs.LiteralPool
import Lc3Assembler.Proofs.Meaning
import Lc3Assembler.Proofs.MemoryLayout
import Lc3Assembler.Proofs.Names
import Lc3Assembler.Proofs.Numerals
import Lc3Assembler.Proofs.ObjectReading
import Lc3Assembler.Proofs.OperandGrammar
import Lc3Assembler.Proofs.Outcome
import Lc3Assembler.Proofs.QuietRuns
import Lc3Assembler.Proofs.Reading
import Lc3Assembler.Proofs.Rebasing
import Lc3Assembler.Proofs.RecordCeiling
import Lc3Assembler.Proofs.RecordLines
import Lc3Assembler.Proofs.Records
import Lc3Assembler.Proofs.Rejections
import Lc3Assembler.Proofs.Relocation
import Lc3Assembler.Proofs.RenumberedOutput
import Lc3Assembler.Proofs.Renumbering
import Lc3Assembler.Proofs.Runs
import Lc3Assembler.Proofs.SessionHistories
import Lc3Assembler.Proofs.SessionRuns
import Lc3Assembler.Proofs.ShownWarnings
import Lc3Assembler.Proofs.StoreHistories
import Lc3Assembler.Proofs.StoredWords
import Lc3Assembler.Proofs.SymbolTable
import Lc3Assembler.Proofs.TableLimits
import Lc3Assembler.Proofs.Utf8RoundTrip
import Lc3Assembler.Proofs.Warnings
import Lc3Assembler.Proofs.WrittenFiles
import Lc3Assembler.Session
import Lc3Assembler.Source
import Lc3Assembler.SourceLine
import Lc3Assembler.Text.Blank
import Lc3Assembler.Text.Hidden
import Lc3Assembler.Text.Integer
import Lc3Assembler.Text.Lines
import Lc3Assembler.Text.Numeral
import Lc3Assembler.Text.Quoted
import Lc3Assembler.Text.Similarity
import Lc3Assembler.Text.Sorted
import Lc3Assembler.Text.Terminal
import Lc3Assembler.Text.Utf8
import Lc3Assembler.Trace
import Lc3Assembler.Trace.Wording
import Lc3Assembler.Word
