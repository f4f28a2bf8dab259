import Panadapter.Scope.Basic
import Panadapter.Stream.Acquisition

/-! # The receiver

A receiver is a scope together with the acquisition of each of its streams. The workers make their steps in an order
that nobody controls, beside the frames of the scope.

* `Receiver.ofConfig?`: the receiver of a valid configuration.
* `Receiver.round`: some steps of the workers, and then a frame unless the run is over.
* `Receiver.run`: rounds until the run is over.
* `Receiver.windUp`: what the workers still do once the program shuts down.
* `Receiver.perform`: all of a run, from the configuration to the end.
-/

namespace Panadapter

/-- A scope, with the acquisition of the stream of each view in the order of the views. -/
structure Receiver where
  scope : Scope
  acquisitions : List Acquisition

namespace Receiver

/-- What is logged about a stream at the beginning. -/
def announcement (c : StreamConfig) : LogLine :=
  ⟨.info,
    "stream " ++ c.name ++ ": " ++ c.transport.describe ++ " stride=" ++ toString c.stride ++ " scale="
      ++ Decimal.textOfFloat32 c.scale ++ " N=" ++ toString c.fftLength.points ++ " enabled=" ++ truthName c.enabled⟩

/-- The view of a stream to which nothing has happened, with plans of the transform at hand. -/
def viewOf (c : StreamConfig) : StreamView := .ofConfig .ofRoots c (.ofName c.name c.enabled c.queueCapacity)

/-- The acquisition of a stream, not begun. -/
def acquisitionOf (c : StreamConfig) : Acquisition := .ofConfig c.transport (.ofStride c.stride c.scale)

/-- The receiver of a configuration, if it is valid. -/
def ofConfig? (c : ScopeConfig) : Except ConfigError (Log × Receiver) := do
  c.validate
  return (c.streams.map announcement, ⟨.ofViews (c.streams.map viewOf) c.fps, c.streams.map acquisitionOf⟩)

/-- What goes on around the receiver during a round: the time, the workers that make a step, by index and in order,
whether the program shuts down then, and the commands that are waiting. -/
structure Round where
  now : Nat
  turns : List Nat
  shutdown : Bool
  pending : List ScopeCommand

/-- One step of the worker at an index. -/
def turn (r : Receiver) (storage : Storage) (now : Nat) (shutdown : Bool) (index : Nat) : Log × Receiver :=
  match r.acquisitions[index]?, r.scope.views[index]? with
  | some a, some v =>
    let (a, stream, log) := a.step storage now shutdown v.stream
    (log,
      { scope := { r.scope with views := r.scope.views.set index { v with stream } }
        acquisitions := r.acquisitions.set index a })
  | _, _ => ([], r)

/-- Steps of workers, by index and in order. -/
def turns (storage : Storage) (now : Nat) (shutdown : Bool) : List Nat → Receiver → Log × Receiver
  | [], r => ([], r)
  | index :: rest, r =>
    let (log, r) := r.turn storage now shutdown index
    let (more, r) := turns storage now shutdown rest r
    (log ++ more, r)

/-- One round. There is no frame when the run is over. -/
def round (r : Receiver) (storage : Storage) (limit : Option Nat) (x : Round) :
    Option (List Frame) × Log × Receiver :=
  let (log, r) := r.turns storage x.now x.shutdown x.turns
  if r.scope.isOver x.shutdown limit then (none, log ++ r.scope.farewell, r)
  else
    let (frames, more, scope) := r.scope.step x.pending
    (some frames, log ++ more, { r with scope })

/-- Frames with their numbers, as long as there are rounds and the run is not over. -/
def run (storage : Storage) (limit : Option Nat) :
    List Round → Receiver → List (Nat × List Frame) × Log × Receiver
  | [], r => ([], [], r)
  | x :: rest, r =>
    match r.round storage limit x with
    | (none, log, r) => ([], log, r)
    | (some frames, log, r) =>
      let (more, moreLog, last) := run storage limit rest r
      ((r.scope.frames, frames) :: more, log ++ moreLog, last)

/-- The most steps that a worker makes once the program shuts down. -/
def stepsToEnd : Nat := 16

/-- The workers brought to the end of their programs. -/
def windUp (r : Receiver) (storage : Storage) (now : Nat) : Log × Receiver :=
  let all := List.range r.acquisitions.length
  r.turns storage now true (List.replicate stepsToEnd all).flatten

/-- What a run has shown and logged, whether it has told the program to shut down, and the receiver it has come to. -/
structure Performance where
  frames : List (Nat × List Frame)
  log : Log
  shutdown : Bool
  outcome : Except ConfigError Receiver

/-- All of a run. Once its rounds are over the program shuts down, and the workers come to their ends. -/
def perform (c : ScopeConfig) (storage : Storage) (limit : Option Nat) (rounds : List Round) (ending : Nat) :
    Performance :=
  match ofConfig? c with
  | .error e => ⟨[], [], false, .error e⟩
  | .ok (opening, r) =>
    let (frames, log, r) := run storage limit rounds r
    let (closing, r) := r.windUp storage ending
    ⟨frames, opening ++ log ++ closing, true, .ok r⟩

end Receiver

end Panadapter
