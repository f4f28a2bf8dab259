import Panadapter.CommandLine.Grammar
import Panadapter.CommandLine.Value
import Panadapter.Decimal.Binary
import Panadapter.Decimal.Fixed
import Panadapter.Decimal.Layout
import Panadapter.Decimal.Numeral
import Panadapter.Decimal.Scan
import Panadapter.Decimal.Shortest
import Panadapter.DeviceError
import Panadapter.Fir.AddressText
import Panadapter.Fir.RegisterMap
import Panadapter.Fir.Registers
import Panadapter.Fir.Stage
import Panadapter.Fir.Tool
import Panadapter.Json.Decode
import Panadapter.Json.Encode
import Panadapter.Json.Number
import Panadapter.Json.Printer
import Panadapter.Json.Reader
import Panadapter.Json.Tree
import Panadapter.Log
import Panadapter.Main
import Panadapter.Palette.Basic
import Panadapter.Palette.Colour
import Panadapter.Palette.Document
import Panadapter.Proofs.Scope.Windows
import Panadapter.Proofs.Stream.Attempts
import Panadapter.Proofs.Stream.Course
import Panadapter.Proofs.Stream.Interleaving
import Panadapter.Proofs.Stream.Ledger
import Panadapter.Receiver
import Panadapter.Sample.Demux
import Panadapter.Sample.Queue
import Panadapter.Scope.Arguments
import Panadapter.Scope.Basic
import Panadapter.Scope.Command
import Panadapter.Scope.CommandInput
import Panadapter.Scope.Config
import Panadapter.Scope.Document
import Panadapter.Scope.Status
import Panadapter.Scope.View
import Panadapter.Spectrum.Document
import Panadapter.Spectrum.FftLength
import Panadapter.Spectrum.Plan
import Panadapter.Spectrum.Processor
import Panadapter.Spectrum.Transform
import Panadapter.Storage.Basic
import Panadapter.Storage.Program
import Panadapter.Stream.Acquisition
import Panadapter.Stream.Basic
import Panadapter.Stream.Worker
import Panadapter.Text.Blank
import Panadapter.Text.Utf8
import Panadapter.ToneProgram
import Panadapter.Transport.Basic
import Panadapter.Transport.Capture
import Panadapter.Transport.Config
import Panadapter.Transport.Document
import Panadapter.Transport.Pacer
import Panadapter.Transport.Tone
import Panadapter.Waterfall.Basic
import Panadapter.Waterfall.Cadence
import Panadapter.Proofs.Stream.Staleness
import Panadapter.Proofs.Scope.StaleWindows
import Panadapter.Proofs.Scope.WindowCapacity
import Panadapter.Proofs.Waterfall.Recent
import Panadapter.Proofs.Transport.Decoding
import Panadapter.Proofs.Transport.Replay
import Panadapter.Proofs.Transport.Looping
import Panadapter.Proofs.Transport.Demultiplexing
import Panadapter.Proofs.Stream.Switching
import Panadapter.Proofs.Stream.Counters
import Panadapter.Proofs.Scope.Histories
import Panadapter.Proofs.Scope.Separation
import Panadapter.Proofs.Scope.Spectra
import Panadapter.Proofs.Fir.Refusals
import Panadapter.Proofs.Fir.DryRun
import Panadapter.Proofs.Scope.Lengths
import Panadapter.Proofs.Json.Numerals
import Panadapter.Proofs.Json.Spellings
import Panadapter.Proofs.Json.Texts
import Panadapter.Proofs.Json.Records
import Panadapter.Proofs.Json.Members
import Panadapter.Proofs.Scope.Documents
import Panadapter.Proofs.Sample.WindowGrid
import Panadapter.Proofs.Spectrum.Caching
import Panadapter.Proofs.Text.Lines
import Panadapter.Proofs.Scope.CommandTraffic
import Panadapter.Proofs.Scope.UnreadableLines
import Panadapter.Proofs.Scope.Updates
import Panadapter.Proofs.Scope.Feeding
import Panadapter.Proofs.Scope.Pictures
import Panadapter.Proofs.Scope.Presentation
import Panadapter.Proofs.Scope.Rounds
import Panadapter.Proofs.Decimal.Comparison
import Panadapter.Proofs.Scope.Validity
import Panadapter.Proofs.Scope.Overrides
import Panadapter.Proofs.Fir.RegisterLists
import Panadapter.Proofs.Fir.RegisterInstances
import Panadapter.Proofs.Decimal.Ranks
import Panadapter.Proofs.Spectrum.Peaks
import Panadapter.Proofs.Scope.Grids
import Panadapter.Proofs.CommandLine.Kept
import Panadapter.Proofs.Fir.ConsecutiveRegisters
import Panadapter.Proofs.Decimal.Rounding
import Panadapter.Proofs.Decimal.Packing
import Panadapter.Proofs.Decimal.Bounds
import Panadapter.Proofs.Transport.Tones
import Panadapter.Proofs.Fir.AddressTexts
import Panadapter.Proofs.Decimal.Values
import Panadapter.Proofs.Decimal.Nearest
import Panadapter.Proofs.Decimal.Places
import Panadapter.Proofs.Transport.ToneArguments
import Panadapter.Proofs.Palette.Colours
import Panadapter.Proofs.Scope.CommandTexts
