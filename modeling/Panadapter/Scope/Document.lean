import Panadapter.Json.Printer
import Panadapter.Palette.Document
import Panadapter.Scope.Config
import Panadapter.Spectrum.Document
import Panadapter.Storage.Basic
import Panadapter.Transport.Document

/-! # Configurations in documents

* `StreamConfig.read`, `ScopeConfig.read`: a configuration out of a document. What is missing has its usual value.
* `ScopeConfig.toTree`: a configuration as a document, with every member.
* `ScopeConfig.load`: a valid configuration out of a file.
-/

namespace Panadapter

open Json (RecordField Read Tree)

namespace WaterfallConfig

/-- The members of a waterfall. -/
def fields : List (RecordField WaterfallConfig) :=
  [.defaulted "enabled" Json.readBool fun v c => { c with enabled := v },
   .defaulted "width" (Json.readNat Json.largest64) fun v c => { c with width := v },
   .defaulted "height" (Json.readNat Json.largest64) fun v c => { c with height := v },
   .defaulted "every" (Json.readNat Json.largest32) fun v c => { c with every := v },
   .defaulted "orientation" (Json.readChoice Orientation.named) fun v c => { c with orientation := v },
   .defaulted "reference_max" Json.readFloat32 fun v c => { c with referenceMax := v }]

/-- A waterfall in a document. -/
def read : Read WaterfallConfig := Json.readRecord fields {}

/-- A waterfall as a value of a document. -/
def toTree (c : WaterfallConfig) : Tree :=
  .object [("enabled", .bool c.enabled), ("width", .ofNat c.width), ("height", .ofNat c.height),
    ("every", .ofNat c.every), ("orientation", .string c.orientation.name),
    ("reference_max", .ofFloat32 c.referenceMax)]

end WaterfallConfig

namespace StreamConfig

/-- The members of a stream. -/
def fields : List (RecordField StreamConfig) :=
  [.required "name" Json.readString fun v c => { c with name := v },
   .required "transport" TransportConfig.read fun v c => { c with transport := v },
   .defaulted "stride" (Json.readNat Json.largest64) fun v c => { c with stride := v },
   .defaulted "scale" Json.readFloat32 fun v c => { c with scale := v },
   .defaulted "enabled" Json.readBool fun v c => { c with enabled := v },
   .defaulted "mode" (Json.readChoice DisplayMode.named) fun v c => { c with mode := v },
   .defaulted "source" (Json.readChoice SpectrumSource.named) fun v c => { c with source := v },
   .defaulted "drain" (Json.readChoice DrainPolicy.named) fun v c => { c with drain := v },
   .defaulted "queue_capacity" (Json.readNat Json.largest64) fun v c => { c with queueCapacity := v },
   .defaulted "fft_length" FftLength.read fun v c => { c with fftLength := v },
   .defaulted "plot_max" (Json.readOption Json.readFloat32) fun v c => { c with plotMax := v },
   .defaulted "palette" Palette.read fun v c => { c with palette := v },
   .defaulted "waterfall" WaterfallConfig.read fun v c => { c with waterfall := v }]

/-- A stream in a document. -/
def read : Read StreamConfig := Json.readRecord fields { name := "", transport := .litepcie { device := "" } }

/-- A stream as a value of a document. -/
def toTree (c : StreamConfig) : Tree :=
  .object [("name", .string c.name), ("transport", c.transport.toTree), ("stride", .ofNat c.stride),
    ("scale", .ofFloat32 c.scale), ("enabled", .bool c.enabled), ("mode", .string c.mode.name),
    ("source", .string c.source.name), ("drain", .string c.drain.name), ("queue_capacity", .ofNat c.queueCapacity),
    ("fft_length", c.fftLength.toTree), ("plot_max", .ofOption .ofFloat32 c.plotMax), ("palette", c.palette.toTree),
    ("waterfall", c.waterfall.toTree)]

end StreamConfig

/-- Why no configuration was loaded. -/
inductive LoadError where
  | unreadable (path : String) (cause : StorageError)
  | unparsable (path : String) (fault : Json.Fault)
  | invalid (cause : ConfigError)
  deriving DecidableEq, Repr

/-- The wording of a load error. -/
def LoadError.message : LoadError → String
  | unreadable path cause => "failed to read " ++ path ++ ": " ++ cause.message
  | unparsable path fault => "failed to parse " ++ path ++ ": " ++ fault.message
  | invalid cause => cause.message

namespace ScopeConfig

/-- The members of a configuration. -/
def fields : List (RecordField ScopeConfig) :=
  [.defaulted "fps" Json.readFloat fun v c => { c with fps := v },
   .required "streams" (Json.readList StreamConfig.read) fun v c => { c with streams := v }]

/-- A configuration in a document. -/
def read : Read ScopeConfig := Json.readRecord fields { streams := [] }

/-- A configuration as a value of a document. -/
def toTree (c : ScopeConfig) : Tree :=
  .object [("fps", .ofFloat c.fps), ("streams", .array (c.streams.map StreamConfig.toTree))]

/-- The configuration in a file, if it is valid. -/
def load (s : Storage) (path : String) : Except LoadError ScopeConfig := do
  let text ← (s.readText path).mapError (.unreadable path)
  let c ← (Json.decode read text).mapError (.unparsable path)
  c.validate.mapError .invalid
  return c

end ScopeConfig

end Panadapter
