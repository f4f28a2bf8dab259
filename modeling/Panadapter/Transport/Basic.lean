import Panadapter.Transport.Capture
import Panadapter.Transport.Tone

/-! # Open transports

What every source of buffers does, whichever it is: start, hand out the next buffer if there is one, stop.
-/

namespace Panadapter

/-- A transport that has been opened. -/
inductive Transport where
  | capture (c : Capture)
  | tone (t : Tone)

namespace Transport

/-- The transport of a configuration. There is no driver for boards here. -/
def open? (s : Storage) : TransportConfig → Except DeviceError Transport
  | .litepcie c => .error (.unavailable c.device "built without litepcie support")
  | .capture c => (Capture.open? s c).map capture
  | .tone c => (Tone.open? c true).map tone

/-- What the transport is called in messages. -/
def device : Transport → String
  | capture c => c.device
  | tone t => t.device

/-- The transport ready to deliver, from its beginning. -/
def start (now : Nat) : Transport → Log × Transport
  | capture c => (c.start now).map id capture
  | tone t => ([], .tone (t.start now))

/-- The next buffer, if there is one. -/
def poll (now : Nat) : Transport → Option (Array Int16) × Log × Transport
  | capture c =>
    let (words, log, c) := c.poll now
    (words, log, .capture c)
  | tone t =>
    let (words, t) := t.poll now
    (words, [], .tone t)

/-- The transport at rest. -/
def stop : Transport → Transport
  | capture c => .capture c.stop
  | tone t => .tone t.stop

end Transport

end Panadapter
