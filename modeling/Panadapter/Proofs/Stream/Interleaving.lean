import Panadapter.Stream.Worker

/-!
# A stream beside its worker

The worker makes its steps while others switch the stream, drain its queue and shut the program down. A `LiveStream` is
what they share, a `StreamEvent` what happens next, and a `Chronicle` a whole run with the deeds that can be seen of it.
Every order of events is a run, and every answer of the source.

* What holds at the beginning and is kept by every event holds of every run (`Chronicle.induct`).
* A step of the worker touches the queue at three positions only (`LiveStream.sampleWork`).
-/

namespace Panadapter

/-- A stream while its worker is under way, and whether the program shuts down. -/
structure LiveStream where
  worker : Worker
  stream : Stream
  shutdown : Bool

/-- What can happen next: a step of the worker, given what its source would answer; the stream switched on or off; a
window of `n` samples asked for; the program shut down, which is never taken back. -/
inductive StreamEvent where
  | work (answers : Answers)
  | enable
  | disable
  | drain (n : Nat) (policy : DrainPolicy) (out : Channels)
  | shutDown

/-- What can be seen of an event: a call of the source and what it said, samples put on the queue and samples gone from
it, the switch of the stream. -/
inductive Deed where
  | opened (answer : Except DeviceError String)
  | started (answer : Except DeviceError Unit)
  | polled (answer : Option (Array Int16))
  | stopped
  | closed
  | cleared (gone : List Sample)
  | pushed (new gone : List Sample)
  | drained (window gone : List Sample)
  | enabled
  | disabled

/-- A call of the source with its answer. -/
def Deed.ofCall (answers : Answers) : Call → Deed
  | .opening => opened answers.opened
  | .starting => started answers.started
  | .polling => polled answers.polled
  | .stopping => stopped
  | .closing => closed

namespace LiveStream

/-- A stream that nothing has happened to, and its worker at the beginning. -/
def ofName (source : String) (layout : Demux) (name : String) (enabled : Bool) (capacity : Nat) : LiveStream :=
  ⟨.ofSource source layout, .ofName name enabled capacity, false⟩

/-- How things stand after an event. -/
def next (x : LiveStream) : StreamEvent → LiveStream
  | .work answers =>
    let (worker, stream, _) := x.worker.step answers x.shutdown x.stream
    { x with worker, stream }
  | .enable => { x with stream := x.stream.enable }
  | .disable => { x with stream := x.stream.disable }
  | .drain n policy out =>
    let (_, _, queue) := x.stream.queue.drainWindow n policy out
    { x with stream := { x.stream with queue } }
  | .shutDown => { x with shutdown := true }

/-- The samples that a drain of `n` neither gave nor left in the queue: as many as are missing, from behind the window
on. -/
def discardedBy (before after : SampleQueue) (n : Nat) : List Sample :=
  (before.toList.drop n).take (before.size - n - after.size)

/-- What can be seen of an event. The samples pushed out by a push are as many of the oldest ones as the queue counts
more of afterwards. -/
def deed? (x : LiveStream) : StreamEvent → Option Deed
  | .work answers =>
    match x.worker.position with
    | .clearing => some (.cleared x.stream.queue.toList)
    | .pushing _ buffer =>
      let missing := (x.stream.queue.push buffer).dropped - x.stream.queue.dropped
      some (.pushed buffer.toList ((x.stream.queue.toList ++ buffer.toList).take missing))
    | _ => x.worker.nextCall?.map (.ofCall answers)
  | .enable => some .enabled
  | .disable => some .disabled
  | .drain n policy out =>
    match x.stream.queue.drainWindow n policy out with
    | (true, filled, queue) => some (.drained (filled.toList.take n) (discardedBy x.stream.queue queue n))
    | (false, _, _) => none
  | .shutDown => none

end LiveStream

/-- A run: the deeds so far, and how things stand. -/
structure Chronicle where
  deeds : List Deed
  live : LiveStream

namespace Chronicle

/-- The run that has not begun. -/
def ofLive (x : LiveStream) : Chronicle := ⟨[], x⟩

/-- The run with one more event. -/
def record (r : Chronicle) (e : StreamEvent) : Chronicle := ⟨r.deeds ++ (r.live.deed? e).toList, r.live.next e⟩

/-- The run through events in order. -/
def recordAll (r : Chronicle) (events : List StreamEvent) : Chronicle := events.foldl record r

@[simp] theorem recordAll_nil (r : Chronicle) : r.recordAll [] = r := rfl

@[simp] theorem recordAll_cons (r : Chronicle) (e : StreamEvent) (events : List StreamEvent) :
    r.recordAll (e :: events) = (r.record e).recordAll events := rfl

theorem recordAll_append (r : Chronicle) (first second : List StreamEvent) :
    r.recordAll (first ++ second) = (r.recordAll first).recordAll second :=
  List.foldl_append

theorem live_recordAll (r : Chronicle) (events : List StreamEvent) :
    (r.recordAll events).live = events.foldl LiveStream.next r.live := by
  induction events generalizing r with
  | nil => rfl
  | cons e rest ih => exact ih (r.record e)

/-- What an event keeps is kept by every run. -/
theorem induct {P : Chronicle → Prop} (step : ∀ r e, P r → P (r.record e)) {r : Chronicle} (first : P r)
    (events : List StreamEvent) : P (r.recordAll events) := by
  induction events generalizing r with
  | nil => exact first
  | cons e rest ih => exact ih (step r e first)

/-- Deeds are only ever added. -/
theorem deeds_recordAll (r : Chronicle) (events : List StreamEvent) :
    ∃ later, (r.recordAll events).deeds = r.deeds ++ later :=
  induct (P := fun r' => ∃ later, r'.deeds = r.deeds ++ later)
    (fun r' e ⟨later, h⟩ => ⟨later ++ (r'.live.deed? e).toList, by simp [record, h]⟩) ⟨[], by simp⟩ events

end Chronicle

/-! ## Steps of the worker -/

/-- The samples that a worker has parted out of a buffer and not put on the queue yet. -/
def Worker.inHand (w : Worker) : List Sample :=
  match w.position with
  | .pushing _ buffer => buffer.toList
  | _ => []

/-- Whether a deed says that samples came in or went out. -/
def Deed.moves : Deed → Bool
  | polled answer => answer.isSome
  | cleared _ | pushed _ _ | drained _ _ => true
  | _ => false

namespace LiveStream

@[simp] theorem layout_next (x : LiveStream) (e : StreamEvent) : (x.next e).worker.layout = x.worker.layout := by
  cases e <;> rfl

/-- A drain shows in a window, or not at all. -/
theorem drained_of_deed? {x : LiveStream} {n : Nat} {policy : DrainPolicy} {out : Channels} {d : Deed}
    (done : x.deed? (.drain n policy out) = some d) : ∃ window gone, d = .drained window gone := by
  rw [deed?] at done
  rcases taken : x.stream.queue.drainWindow n policy out with ⟨_ | _, filled, rest⟩
  · rw [taken] at done
    cases done
  · rw [taken] at done
    cases done
    exact ⟨_, _, rfl⟩

/-- What a step of the worker does to the samples: it empties the queue, parts a buffer, puts on the queue what it has
parted, or leaves them alone. -/
inductive SampleWork (x y : LiveStream) : Option Deed → Prop where
  | clearing : x.worker.inHand = [] → y.worker.inHand = [] → y.stream.queue = x.stream.queue.clear →
      SampleWork x y (some (.cleared x.stream.queue.toList))
  | parting (words : Array Int16) : x.worker.inHand = [] → y.worker.inHand = x.worker.layout.samples words →
      y.stream.queue = x.stream.queue → SampleWork x y (some (.polled (some words)))
  | pushing (buffer : Channels) : x.worker.inHand = buffer.toList → y.worker.inHand = [] →
      y.stream.queue = x.stream.queue.push buffer →
      SampleWork x y (some (.pushed buffer.toList
        ((x.stream.queue.toList ++ buffer.toList).take (x.stream.queue.overflow buffer.size))))
  | elsewhere (d : Option Deed) : x.worker.inHand = [] → y.worker.inHand = [] → y.stream.queue = x.stream.queue →
      (∀ d' ∈ d, d'.moves = false) → SampleWork x y d

/-- The samples at every step of the worker. -/
theorem sampleWork (x : LiveStream) (answers : Answers) :
    SampleWork x (x.next (.work answers)) (x.deed? (.work answers)) := by
  obtain ⟨⟨source, layout, position⟩, ⟨⟨name, enabled, state, stats, lastError⟩, queue⟩, shutdown⟩ := x
  obtain ⟨opened, started, polled⟩ := answers
  -- The samples are touched at three positions; elsewhere only the test that a step makes has to be decided.
  cases position with
  | clearing => exact .clearing rfl rfl rfl
  | pushing device buffer =>
    have missing : (queue.push buffer).dropped - queue.dropped = queue.overflow buffer.size := by simp
    rw [deed?]
    simp only [missing]
    exact .pushing buffer rfl rfl rfl
  | polling device =>
    cases polled with
    | none => exact .elsewhere _ rfl rfl rfl (by rintro _ ⟨⟩; rfl)
    | some words => exact .parting words rfl (layout.toList_channels words) rfl
  | opening => cases opened <;> exact .elsewhere _ rfl rfl rfl (by rintro _ ⟨⟩; rfl)
  | starting device => cases started <;> exact .elsewhere _ rfl rfl rfl (by rintro _ ⟨⟩; rfl)
  | testingShutdown => cases shutdown <;> exact .elsewhere _ rfl rfl rfl (by rintro _ ⟨⟩)
  | checkingShutdown device => cases shutdown <;> exact .elsewhere _ rfl rfl rfl (by rintro _ ⟨⟩)
  | leaving device => cases shutdown <;> exact .elsewhere _ rfl rfl rfl (by rintro _ ⟨⟩)
  | testingEnabled => cases enabled <;> exact .elsewhere _ rfl rfl rfl (by rintro _ ⟨⟩)
  | checkingEnabled device => cases enabled <;> exact .elsewhere _ rfl rfl rfl (by rintro _ ⟨⟩)
  | settling => cases state <;> exact .elsewhere _ rfl rfl rfl (by rintro _ ⟨⟩)
  | _ => exact .elsewhere _ rfl rfl rfl (by rintro _ ⟨⟩ <;> rfl)

/-- No event changes how many samples the queue may hold. -/
@[simp] theorem capacity_next (x : LiveStream) (e : StreamEvent) :
    (x.next e).stream.queue.capacity = x.stream.queue.capacity := by
  cases e with
  | work answers =>
    have work := x.sampleWork answers
    generalize x.deed? (.work answers) = d at work
    cases work with
    | clearing _ _ queue => rw [queue, SampleQueue.capacity_clear]
    | parting _ _ _ queue => rw [queue]
    | pushing _ _ _ queue => rw [queue, SampleQueue.capacity_push]
    | elsewhere _ _ _ queue => rw [queue]
  | drain n policy out => exact x.stream.queue.capacity_drainWindow n policy out
  | _ => rfl

end LiveStream

namespace Chronicle

@[simp] theorem capacity_recordAll (r : Chronicle) (events : List StreamEvent) :
    (r.recordAll events).live.stream.queue.capacity = r.live.stream.queue.capacity :=
  induct (P := fun r' => r'.live.stream.queue.capacity = r.live.stream.queue.capacity)
    (fun r' e h => (r'.live.capacity_next e).trans h) rfl events

end Chronicle

end Panadapter
