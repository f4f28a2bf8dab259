import Panadapter.Decimal.Layout

/-! # Transports by description

A stream is fed by a DMA channel of a board, by a recorded capture, or by a synthetic tone. A `TransportConfig` says
which, with everything that is needed to open it.
-/

namespace Panadapter

/-- The size of one DMA buffer, in bytes. -/
def dmaBufferSize : Nat := 8192

/-- The count of 16-bit words in one DMA buffer. -/
def dmaBufferWords : Nat := dmaBufferSize / 2

/-- How the words of a capture are stored: as signed bytes, as little-endian 16-bit words, or as little-endian 32-bit
floating-point numbers. -/
inductive SampleFormat where
  | ci8
  | ci16
  | cf32
  deriving DecidableEq, Repr, Inhabited

namespace SampleFormat

/-- The name of a format in documents and on the command line. -/
def name : SampleFormat → String
  | ci8 => "ci8"
  | ci16 => "ci16"
  | cf32 => "cf32"

/-- The name of a format in messages. -/
def title : SampleFormat → String
  | ci8 => "Ci8"
  | ci16 => "Ci16"
  | cf32 => "Cf32"

/-- Every format with its name. -/
def named : List (String × SampleFormat) := [ci8, ci16, cf32].map fun f => (f.name, f)

/-- The format of a name, in which the case of the letters counts. -/
def ofName? (text : String) : Except String SampleFormat :=
  match named.lookup text with
  | some f => .ok f
  | none => .error ("unknown sample format: " ++ text ++ " (use ci8, ci16, or cf32)")

/-- The size of a word, in bytes. -/
def wordBytes : SampleFormat → Nat
  | ci8 => 1
  | ci16 => 2
  | cf32 => 4

theorem wordBytes_pos (f : SampleFormat) : 0 < f.wordBytes := by cases f <;> decide

end SampleFormat

/-- A DMA channel of a LitePCIe board. -/
structure LitepcieConfig where
  device : String
  zeroCopy : Bool := false
  deriving DecidableEq, Repr, Inhabited

/-- A recorded capture, replayed at its sample rate, over and over if it is looped. -/
structure CaptureConfig where
  path : String
  format : SampleFormat := .ci16
  sampleRate : Nat
  looped : Bool := true
  deriving DecidableEq, Repr, Inhabited

/-- A complex tone, laid out in groups of `stride` words. -/
structure ToneConfig where
  frequency : Float
  sampleRate : Float
  amplitude : Float := 1.0
  stride : Nat := 2
  deriving Repr, Inhabited, DecidableEq

/-- What feeds a stream. -/
inductive TransportConfig where
  | litepcie (c : LitepcieConfig)
  | capture (c : CaptureConfig)
  | tone (c : ToneConfig)
  deriving Repr, Inhabited, DecidableEq

/-- The word for a truth value in messages. -/
def truthName (b : Bool) : String := if b then "true" else "false"

/-- A transport in a message. -/
def TransportConfig.describe : TransportConfig → String
  | litepcie c => "litepcie " ++ c.device ++ " (zero_copy=" ++ truthName c.zeroCopy ++ ")"
  | capture c => "file " ++ c.path ++ " (" ++ c.format.title ++ ")"
  | tone c =>
    "tone " ++ Decimal.textOfFloat c.frequency ++ " Hz @ " ++ Decimal.textOfFloat c.sampleRate ++ " S/s"

end Panadapter
