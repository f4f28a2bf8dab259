import Panadapter.Stream.Worker
import Panadapter.Transport.Basic

/-! # Acquisition from a transport

A worker whose source is the transport of a configuration: the calls of the worker are made on the transport, and what
the transport says is the answer.
-/

namespace Panadapter

/-- A worker, what its transport is opened from, and the transport while it is open. -/
structure Acquisition where
  worker : Worker
  config : TransportConfig
  transport : Option Transport

namespace Acquisition

/-- The acquisition from a transport whose buffers have a layout. -/
def ofConfig (config : TransportConfig) (layout : Demux) : Acquisition :=
  ⟨.ofSource config.describe layout, config, none⟩

/-- Whether the worker has come to the end of its program. -/
def hasEnded (a : Acquisition) : Bool :=
  match a.worker.position with
  | .ended => true
  | _ => false

/-- What the transport answers to the next call, what it logs, and how it is afterwards. -/
def answer (a : Acquisition) (storage : Storage) (now : Nat) : Answers × Log × Option Transport :=
  let silent : Answers := ⟨.ok "", .ok (), none⟩
  match a.worker.nextCall?, a.transport with
  | some .opening, _ =>
    match Transport.open? storage a.config with
    | .ok t => ({ silent with opened := .ok t.device }, [], some t)
    | .error e => ({ silent with opened := .error e }, [], none)
  | some .starting, some t =>
    let (log, t) := t.start now
    (silent, log, some t)
  | some .polling, some t =>
    let (polled, log, t) := t.poll now
    ({ silent with polled }, log, some t)
  | some .stopping, some t => (silent, [], some t.stop)
  | some .closing, _ => (silent, [], none)
  | _, t => (silent, [], t)

/-- One step of the worker on its stream at a time. -/
def step (a : Acquisition) (storage : Storage) (now : Nat) (shutdown : Bool) (s : Stream) :
    Acquisition × Stream × Log :=
  let (answers, log, transport) := a.answer storage now
  let (worker, s, effect) := a.worker.step answers shutdown s
  ({ a with worker, transport }, s, log ++ effect.log)

end Acquisition

end Panadapter
