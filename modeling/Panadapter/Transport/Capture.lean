import Panadapter.Decimal.Binary
import Panadapter.DeviceError
import Panadapter.Log
import Panadapter.Storage.Basic
import Panadapter.Transport.Config
import Panadapter.Transport.Pacer

/-! # Replay of a capture

A capture is cut into buffers of the size that the hardware has, and its bytes are turned into 16-bit words.

* `SampleFormat.decode`: the words of bytes.
* `Capture.open?`, `Capture.start`, `Capture.poll`, `Capture.stop`: a replay.
-/

namespace Panadapter

namespace SampleFormat

/-- A signed byte in the upper half of a word. -/
def wordOfByte (b : UInt8) : Int16 := (b.toUInt16 <<< 8).toInt16

/-- The word of two bytes, the lower one first. -/
def wordOfPair (low high : UInt8) : Int16 := (low.toUInt16 ||| high.toUInt16 <<< 8).toInt16

/-- The 32-bit number of four bytes, the lowest one first. -/
def floatOfBytes (a b c d : UInt8) : Float32 :=
  Float32.ofBits (a.toUInt32 ||| b.toUInt32 <<< 8 ||| c.toUInt32 <<< 16 ||| d.toUInt32 <<< 24)

/-- A number scaled so that one is the largest word, cut to the range of words, and without its fraction; what is no
number becomes zero. -/
def wordOfFloat (x : Float32) : Int16 := Int16.ofInt ((Decimal.Reading.ofFloat32 (x * 32767)).truncate (-32768) 32767)

/-- The whole words of bytes, in order. Bytes that do not make a whole word are left out. -/
def decode : SampleFormat → List UInt8 → List Int16
  | ci8, b :: rest => wordOfByte b :: decode ci8 rest
  | ci16, a :: b :: rest => wordOfPair a b :: decode ci16 rest
  | cf32, a :: b :: c :: d :: rest => wordOfFloat (floatOfBytes a b c d) :: decode cf32 rest
  | _, _ => []

end SampleFormat

/-- A replay: what it reads from, where it stands in it, and whether it delivers. -/
structure Capture where
  device : String
  format : SampleFormat
  content : Except StorageError (List UInt8)
  position : Nat
  looped : Bool
  armed : Bool
  exhausted : Bool
  pacer : Pacer

namespace Capture

/-- A replay of the file that a configuration names. Opening succeeds on a directory too; reading will not. -/
def open? (s : Storage) (c : CaptureConfig) : Except DeviceError Capture :=
  match s.locate c.path with
  | .error e => .error (.unavailable c.path ("failed to open: " ++ e.message))
  | .ok entry =>
    .ok {
      device := c.path
      format := c.format
      content := entry.bytes
      position := 0
      looped := c.looped
      armed := false
      exhausted := false
      pacer := .ofRate (dmaBufferWords / 2) (Float.ofNat c.sampleRate) }

/-- The replay from the beginning. -/
def start (c : Capture) (now : Nat) : Log × Capture :=
  (.info ("replaying IQ from " ++ c.device ++ " (" ++ c.format.title ++ ")"),
    { c with position := 0, exhausted := false, armed := true, pacer := c.pacer.restart now })

/-- The replay at rest. -/
def stop (c : Capture) : Capture := { c with armed := false }

/-- The size of a full buffer, in bytes. -/
def blockBytes (c : Capture) : Nat := dmaBufferWords * c.format.wordBytes

/-- The bytes of the next buffer from a position on, and the position behind them. -/
def blockAt (c : Capture) (bytes : List UInt8) (position : Nat) : List UInt8 × Nat :=
  let block := (bytes.drop position).take c.blockBytes
  (block, position + block.length)

/-- The bytes of the next buffer. At the end a looped replay goes on at the beginning. -/
def nextBlock (c : Capture) (bytes : List UInt8) : List UInt8 × Nat :=
  match c.blockAt bytes c.position with
  | ([], _) => if c.looped then c.blockAt bytes 0 else ([], c.position)
  | found => found

/-- The next buffer, if one is due and there is one. Fewer bytes than a word end the replay, and so does a file that
cannot be read. -/
def poll (c : Capture) (now : Nat) : Option (Array Int16) × Log × Capture :=
  if !c.armed || c.exhausted then (none, [], c)
  else
    match c.pacer.release now with
    | (false, pacer) => (none, [], { c with pacer })
    | (true, pacer) =>
      match c.content with
      | .error e =>
        (none, .error ("read error on " ++ c.device ++ ": " ++ e.message), { c with pacer, exhausted := true })
      | .ok bytes =>
        let (block, position) := c.nextBlock bytes
        if block.length < c.format.wordBytes then
          (none, .info ("end of file: " ++ c.device), { c with pacer, position, exhausted := true })
        else (some (c.format.decode block).toArray, [], { c with pacer, position })

end Capture

end Panadapter
