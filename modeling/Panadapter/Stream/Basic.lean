import Panadapter.Sample.Queue

/-! # Streams

A stream is what the two sides of the scope share: the acquisition fills its queue and publishes how it is doing, the
display empties the queue and switches the stream on and off.

* `StreamState`, `StreamStats`, `StreamControl`: what is published.
* `Stream`: that and the queue.
-/

namespace Panadapter

/-- What the acquisition of a stream is doing. -/
inductive StreamState where
  | idle
  | waitingForEnable
  | acquiring
  | failed
  | shuttingDown
  | stopped
  deriving DecidableEq, Repr, Inhabited

/-- The name of a state in messages. -/
def StreamState.title : StreamState → String
  | idle => "Idle"
  | waitingForEnable => "WaitingForEnable"
  | acquiring => "Acquiring"
  | failed => "Failed"
  | shuttingDown => "ShuttingDown"
  | stopped => "Stopped"

/-- Buffers polled, samples they held, samples dropped from the queue, and attempts to open or start that failed. -/
structure StreamStats where
  buffers : Nat := 0
  samples : Nat := 0
  dropped : Nat := 0
  openFailures : Nat := 0
  deriving DecidableEq, Repr, Inhabited

/-- The published side of a stream: its switch, its state, its counters, and why it failed last. -/
structure StreamControl where
  name : String
  enabled : Bool
  state : StreamState
  stats : StreamStats
  lastError : Option String
  deriving DecidableEq, Repr, Inhabited

namespace StreamControl

/-- A stream that nothing has happened to. -/
def ofName (name : String) (enabled : Bool) : StreamControl := ⟨name, enabled, .idle, {}, none⟩

/-- The stream switched on. -/
def enable (c : StreamControl) : StreamControl := { c with enabled := true }

/-- The stream switched off. -/
def disable (c : StreamControl) : StreamControl := { c with enabled := false }

/-- Another state published. -/
def setState (c : StreamControl) (state : StreamState) : StreamControl := { c with state }

/-- One more buffer, with the samples that it held and those that had to go for it. -/
def recordBuffer (c : StreamControl) (samples dropped : Nat) : StreamControl :=
  { c with
    stats := { c.stats with
      buffers := c.stats.buffers + 1
      samples := c.stats.samples + samples
      dropped := c.stats.dropped + dropped } }

/-- One more failed attempt. -/
def countFailure (c : StreamControl) : StreamControl :=
  { c with stats := { c.stats with openFailures := c.stats.openFailures + 1 } }

/-- The reason of the last failure. -/
def setLastError (c : StreamControl) (reason : String) : StreamControl := { c with lastError := some reason }

end StreamControl

/-- A stream: its published side and its queue. -/
structure Stream where
  control : StreamControl
  queue : SampleQueue

namespace Stream

/-- A stream that nothing has happened to. -/
def ofName (name : String) (enabled : Bool) (capacity : Nat) : Stream :=
  ⟨.ofName name enabled, .ofCapacity capacity⟩

/-- The stream switched on. -/
def enable (s : Stream) : Stream := { s with control := s.control.enable }

/-- The stream switched off. -/
def disable (s : Stream) : Stream := { s with control := s.control.disable }

/-- Samples pushed on the queue. -/
def push (s : Stream) (new : Channels) : Stream := { s with queue := s.queue.push new }

end Stream

end Panadapter
