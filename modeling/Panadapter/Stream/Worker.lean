import Panadapter.DeviceError
import Panadapter.Log
import Panadapter.Sample.Demux
import Panadapter.Stream.Basic

/-! # Acquisition

Every stream has a worker. It waits until the stream is switched on, opens and starts the source of the stream, moves
its buffers into the queue until the stream is switched off or the program shuts down, and stops the source. A source
that cannot be opened or started switches the stream off.

The worker runs beside the display, and both use the stream. So its program is told in steps, each of which reads or
writes at most one thing that is shared, and makes at most one call of the source. Whatever happens between two steps is
up to the others.

* `Position`: where the worker is in its program.
* `Call`, `Answers`: what it asks of the source, and what the source has to say.
* `Worker.step`: one step.
-/

namespace Panadapter

/-- What a worker asks of its source. -/
inductive Call where
  | opening
  | starting
  | polling
  | stopping
  | closing
  deriving DecidableEq, Repr

/-- What the source answers if it is called: its device or why it cannot be opened, why it cannot be started, and the
buffer that is due. -/
structure Answers where
  opened : Except DeviceError String
  started : Except DeviceError Unit
  polled : Option (Array Int16)

/-- Where a worker is in its program, with what it carries along. -/
inductive Position where
  | beginning
  | testingShutdown
  | testingEnabled
  | clearing
  | opening
  | starting (device : String)
  | closingRefused (reason : DeviceError)
  | countingFailure (reason : DeviceError)
  | keepingReason (reason : DeviceError)
  | switchingOff
  | markingFailure
  | announcing (device : String)
  | checkingEnabled (device : String)
  | checkingShutdown (device : String)
  | polling (device : String)
  | pushing (device : String) (buffer : Channels)
  | recording (device : String) (samples dropped : Nat)
  | leaving (device : String)
  | announcingShutdown (device : String)
  | stopping (device : String)
  | closing
  | settling
  | ending
  | ended

/-- A worker: how its source is described, how the buffers are laid out, and where it is. -/
structure Worker where
  source : String
  layout : Demux
  position : Position

/-- What a step does besides moving on: a call of the source and lines for the log. -/
structure Effect where
  call : Option Call := none
  log : Log := []

namespace Worker

/-- How long a worker rests between two looks at the switch of its stream, in milliseconds. -/
def enablePollMilliseconds : Nat := 500

/-- A worker at the beginning of its program. -/
def ofSource (source : String) (layout : Demux) : Worker := ⟨source, layout, .beginning⟩

/-- A source that was refused, in the log. -/
def refusal (w : Worker) (s : Stream) (reason : DeviceError) : Log :=
  .error (s.control.name ++ ": could not open " ++ w.source ++ ": " ++ reason.message)

/-- Where the worker is after one step, the stream, and what else the step does. -/
def advance (w : Worker) (answers : Answers) (shutdown : Bool) (s : Stream) : Position × Stream × Effect :=
  let publish (state : StreamState) : Stream := { s with control := s.control.setState state }
  match w.position with
  | .beginning => (.testingShutdown, publish .waitingForEnable, {})
  | .testingShutdown => (if shutdown then .ending else .testingEnabled, s, {})
  | .testingEnabled => (if s.control.enabled then .clearing else .testingShutdown, s, {})
  | .clearing => (.opening, { s with queue := s.queue.clear }, {})
  | .opening =>
    match answers.opened with
    | .ok device => (.starting device, s, { call := some .opening })
    | .error e => (.countingFailure e, s, { call := some .opening, log := w.refusal s e })
  | .starting device =>
    match answers.started with
    | .ok () => (.announcing device, s, { call := some .starting })
    | .error e => (.closingRefused e, s, { call := some .starting })
  | .closingRefused e => (.countingFailure e, s, { call := some .closing, log := w.refusal s e })
  | .countingFailure e => (.keepingReason e, { s with control := s.control.countFailure }, {})
  | .keepingReason e => (.switchingOff, { s with control := s.control.setLastError e.message }, {})
  | .switchingOff => (.markingFailure, s.disable, {})
  | .markingFailure => (.testingShutdown, publish .failed, {})
  | .announcing device =>
    (.checkingEnabled device, publish .acquiring, { log := .info (s.control.name ++ ": acquiring from " ++ device) })
  | .checkingEnabled device => (if s.control.enabled then .checkingShutdown device else .leaving device, s, {})
  | .checkingShutdown device => (if shutdown then .leaving device else .polling device, s, {})
  | .polling device =>
    match answers.polled with
    | some words => (.pushing device (w.layout.channels words), s, { call := some .polling })
    | none => (.checkingEnabled device, s, { call := some .polling })
  | .pushing device buffer => (.recording device buffer.i.size (s.queue.overflow buffer.size), s.push buffer, {})
  | .recording device samples dropped =>
    (.checkingEnabled device, { s with control := s.control.recordBuffer samples dropped }, {})
  | .leaving device => (if shutdown then .announcingShutdown device else .stopping device, s, {})
  | .announcingShutdown device => (.stopping device, publish .shuttingDown, {})
  | .stopping device =>
    (.closing, s, { call := some .stopping, log := .info (s.control.name ++ ": stopped " ++ device) })
  | .closing => (.settling, s, { call := some .closing })
  | .settling =>
    (.testingShutdown, if s.control.state = .shuttingDown then s else publish .waitingForEnable, {})
  | .ending => (.ended, publish .stopped, {})
  | .ended => (.ended, s, {})

/-- One step of a worker, given what its source would answer and whether the program shuts down. -/
def step (w : Worker) (answers : Answers) (shutdown : Bool) (s : Stream) : Worker × Stream × Effect :=
  let (position, s, effect) := w.advance answers shutdown s
  ({ w with position }, s, effect)

/-- The call that the next step makes. -/
def nextCall? (w : Worker) : Option Call :=
  match w.position with
  | .opening => some .opening
  | .starting _ => some .starting
  | .closingRefused _ => some .closing
  | .polling _ => some .polling
  | .stopping _ => some .stopping
  | .closing => some .closing
  | _ => none

/-- A step makes exactly the call that is next. -/
theorem call_step (w : Worker) (answers : Answers) (shutdown : Bool) (s : Stream) :
    (w.step answers shutdown s).2.2.call = w.nextCall? := by
  unfold step advance nextCall?
  cases h : w.position with
  | opening => cases answers.opened <;> rfl
  | starting device => cases answers.started <;> rfl
  | polling device => cases answers.polled <;> rfl
  | _ => rfl

end Worker

end Panadapter
