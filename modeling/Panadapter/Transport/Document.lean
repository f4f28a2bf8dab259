import Panadapter.Json.Decode
import Panadapter.Json.Encode
import Panadapter.Transport.Config

/-! # Transports in documents

A transport is an object whose member `kind` says which one it is. The member may stand anywhere; it is written first.
-/

namespace Panadapter

open Json (RecordField Read Tree)

namespace SampleFormat

/-- A format in a document. -/
def read : Read SampleFormat := Json.readChoice named

end SampleFormat

namespace LitepcieConfig

/-- The members of a board channel. -/
def fields : List (RecordField LitepcieConfig) :=
  [.required "device" Json.readString fun v c => { c with device := v },
   .defaulted "zero_copy" Json.readBool fun v c => { c with zeroCopy := v }]

end LitepcieConfig

namespace CaptureConfig

/-- The members of a capture. -/
def fields : List (RecordField CaptureConfig) :=
  [.required "path" Json.readString fun v c => { c with path := v },
   .defaulted "format" SampleFormat.read fun v c => { c with format := v },
   .required "sample_rate" (Json.readNat Json.largest32) fun v c => { c with sampleRate := v },
   .defaulted "looped" Json.readBool fun v c => { c with looped := v }]

end CaptureConfig

namespace ToneConfig

/-- The members of a tone. -/
def fields : List (RecordField ToneConfig) :=
  [.required "frequency" Json.readFloat fun v c => { c with frequency := v },
   .required "sample_rate" Json.readFloat fun v c => { c with sampleRate := v },
   .defaulted "amplitude" Json.readFloat fun v c => { c with amplitude := v },
   .defaulted "stride" (Json.readNat Json.largest64) fun v c => { c with stride := v }]

end ToneConfig

/-- Which transport a document describes. -/
inductive TransportKind where
  | litepcie
  | capture
  | tone
  deriving DecidableEq, Repr

/-- The kinds by the name that the document gives them. -/
def TransportKind.named : List (String × TransportKind) :=
  [("litepcie", litepcie), ("file", capture), ("tone", tone)]

namespace TransportConfig

/-- A transport in a document. It is kept whole until its kind is known. -/
def read : Read TransportConfig := fun p t => do
  let (kind, rest) ← Json.splitTag "kind" TransportKind.named p t
  let p := { p with held := true }
  match kind with
  | .litepcie => (Json.readRecord LitepcieConfig.fields { device := "" } p rest).map litepcie
  | .capture => (Json.readRecord CaptureConfig.fields { path := "", sampleRate := 0 } p rest).map capture
  | .tone => (Json.readRecord ToneConfig.fields { frequency := 0, sampleRate := 0 } p rest).map tone

/-- A transport as a value of a document, with every member. -/
def toTree : TransportConfig → Tree
  | litepcie c =>
    .object [("kind", .string "litepcie"), ("device", .string c.device), ("zero_copy", .bool c.zeroCopy)]
  | capture c =>
    .object [("kind", .string "file"), ("path", .string c.path), ("format", .string c.format.name),
      ("sample_rate", .ofNat c.sampleRate), ("looped", .bool c.looped)]
  | tone c =>
    .object [("kind", .string "tone"), ("frequency", .ofFloat c.frequency), ("sample_rate", .ofFloat c.sampleRate),
      ("amplitude", .ofFloat c.amplitude), ("stride", .ofNat c.stride)]

end TransportConfig

end Panadapter
