import Panadapter.Proofs.Scope.Windows
import Panadapter.Proofs.Stream.Staleness
import Panadapter.Receiver

/-!
# A view beside the worker of its stream

The display updates its view while the worker makes its steps. An update first looks whether the stream is switched on,
then takes a window; steps of the worker may come between. The worker empties the queue only when it has seen the
switch itself.

* Whatever happens to a view is a run of its stream (`LiveView.live_nextAll`).
* After the stream has been switched on, a fresh window shows samples of sessions that were over by then exactly if no
  session was under way and the worker has not emptied the queue since (`fresh_window_stale_iff`).
-/

namespace Panadapter

/-- A view while the worker of its stream is under way; whether the program shuts down, and whether the update that is
being made has seen the stream switched on. -/
structure LiveView where
  worker : Worker
  view : StreamView
  shutdown : Bool
  seen : Bool

/-- What can happen next: a step of the worker, a command, the two halves of an update, and the end of the program. -/
inductive ViewEvent where
  | work (answers : Answers)
  | command (c : StreamCommand)
  | look
  | take
  | shutDown

namespace LiveView

/-- The view of a stream that nothing has happened to. -/
def ofConfig (c : StreamConfig) : LiveView :=
  ⟨(Receiver.acquisitionOf c).worker, Receiver.viewOf c, false, false⟩

/-- How things stand after an event. An update that has seen the stream switched off leaves the view as it is, but for
not being fresh. -/
def next (x : LiveView) : ViewEvent → LiveView
  | .work answers =>
    let (worker, stream, _) := x.worker.step answers x.shutdown x.view.stream
    { x with worker, view := { x.view with stream } }
  | .command c => { x with view := x.view.apply c }
  | .look => { x with seen := x.view.stream.control.enabled }
  | .take =>
    if x.seen then { x with view := x.view.showNext.2, seen := false }
    else { x with view := { x.view with fresh := false } }
  | .shutDown => { x with shutdown := true }

/-- How things stand after events in order. -/
def nextAll (x : LiveView) (events : List ViewEvent) : LiveView := events.foldl next x

/-- The stream of the view with its worker. -/
def live (x : LiveView) : LiveStream := ⟨x.worker, x.view.stream, x.shutdown⟩

/-- What an event is to the stream. -/
def streamEvents (x : LiveView) : ViewEvent → List StreamEvent
  | .work answers => [.work answers]
  | .command .enable => [.enable]
  | .command .disable => [.disable]
  | .command _ => []
  | .look => []
  | .take => if x.seen then [.drain x.view.fftLength.points x.view.drain x.view.window] else []
  | .shutDown => [.shutDown]

/-- What events in order are to the stream. -/
def streamEventsAll (x : LiveView) : List ViewEvent → List StreamEvent
  | [] => []
  | e :: rest => x.streamEvents e ++ (x.next e).streamEventsAll rest

/-- The run of the stream through events of its view. -/
def chronicle (x : LiveView) (events : List ViewEvent) : Chronicle :=
  (Chronicle.ofLive x.live).recordAll (x.streamEventsAll events)

variable (x : LiveView)

theorem streamEventsAll_append (first second : List ViewEvent) :
    x.streamEventsAll (first ++ second) = x.streamEventsAll first ++ (x.nextAll first).streamEventsAll second := by
  induction first generalizing x with
  | nil => rfl
  | cons e rest ih =>
    rw [List.cons_append, streamEventsAll, ih, streamEventsAll, List.append_assoc]
    rfl

/-- The halves of an update with nothing in between are an update. -/
theorem view_look_take : ((x.next .look).next .take).view = x.view.update.2 := by
  cases on : x.view.stream.control.enabled with
  | true => simp [next, StreamView.update, on]
  | false => simp [next, StreamView.update, on]

/-- The stream fares as its own events say. -/
theorem live_next (e : ViewEvent) : (x.next e).live = (x.streamEvents e).foldl LiveStream.next x.live := by
  cases e with
  | command c =>
    cases c with
    | setFftLength length =>
      show LiveStream.mk x.worker (x.view.setFftLength length).stream x.shutdown = x.live
      unfold StreamView.setFftLength
      split <;> rfl
    | _ => rfl
  | take =>
    simp only [next, streamEvents]
    split
    · show LiveStream.mk x.worker x.view.showNext.2.stream x.shutdown = _
      rw [x.view.shows_showNext.stream]
      rfl
    · rfl
  | _ => rfl

/-- Whatever happens to a view is a run of its stream. -/
theorem live_nextAll {r : Chronicle} (same : r.live = x.live) (events : List ViewEvent) :
    (r.recordAll (x.streamEventsAll events)).live = (x.nextAll events).live := by
  induction events generalizing x r with
  | nil => exact same
  | cons e rest ih =>
    rw [streamEventsAll, Chronicle.recordAll_append]
    refine ih (x.next e) ?_
    rw [Chronicle.live_recordAll, live_next, same]

theorem live_chronicle (events : List ViewEvent) : (x.chronicle events).live = (x.nextAll events).live :=
  x.live_nextAll rfl events

theorem chronicle_append (first second : List ViewEvent) :
    x.chronicle (first ++ second) = (x.chronicle first).recordAll ((x.nextAll first).streamEventsAll second) := by
  rw [chronicle, streamEventsAll_append, Chronicle.recordAll_append, chronicle]

variable {x}

theorem fits_nextAll (f : x.view.Fits) (events : List ViewEvent) : (x.nextAll events).view.Fits := by
  induction events generalizing x with
  | nil => exact f
  | cons e rest ih =>
    refine ih (x := x.next e) ?_
    cases e with
    | work answers => exact f.withStream _
    | command c => exact f.apply c
    | take =>
      simp only [next]
      split
      · exact f.showNext
      · exact ⟨f.i, f.q⟩
    | look | shutDown => exact f

/-- A fresh update has seen the stream switched on and takes the oldest window of the queue. -/
theorem fresh_take (f : x.view.Fits) (fresh : (x.next .take).view.fresh = true) :
    x.view.fftLength.points ≤ x.view.stream.queue.size ∧ (x.next .take).view = x.view.showNext.2 := by
  simp only [next] at fresh ⊢
  split at fresh
  · rename_i seen
    rw [if_pos seen]
    exact ⟨f.fresh_showNext_iff.1 fresh, rfl⟩
  · cases fresh

end LiveView

/-! ## Switching a stream on -/

/-- A run in which a stream is switched on and later its view takes a window: what happens before the one, and between
the two. -/
structure Reenabling where
  config : StreamConfig
  before : List ViewEvent
  after : List ViewEvent

namespace Reenabling

variable (r : Reenabling)

/-- The stream when it is switched on. -/
def atEnable : Chronicle := (LiveView.ofConfig r.config).chronicle r.before

/-- The view when it takes the window. -/
def viewAtTake : LiveView := (LiveView.ofConfig r.config).nextAll (r.before ++ .command .enable :: r.after)

/-- The stream when the window is taken. -/
def atTake : Chronicle := (LiveView.ofConfig r.config).chronicle (r.before ++ .command .enable :: r.after)

/-- The view with the window. -/
def shown : StreamView := (r.viewAtTake.next .take).view

/-- The samples in the window, if it is a fresh one. -/
def window : List Sample := (r.atTake.ledger.arrivals.drop r.atTake.firstQueued).take r.shown.fftLength.points

/-- Whether there are samples in a fresh window that arrived in a session which was over when the stream was switched
on. -/
def IsStale : Prop := ∃ k < r.shown.fftLength.points, r.atTake.firstQueued + k < r.atEnable.overSamples

theorem balanced_atEnable : r.atEnable.Balanced (Receiver.acquisitionOf r.config).worker.layout :=
  (Chronicle.balanced_ofName ..).recordAll _

theorem balanced_atTake : r.atTake.Balanced (Receiver.acquisitionOf r.config).worker.layout :=
  (Chronicle.balanced_ofName ..).recordAll _

theorem fits_viewAtTake : r.viewAtTake.view.Fits := LiveView.fits_nextAll (StreamView.fits_ofConfig _ _ _) _

theorem queue_viewAtTake : r.atTake.live.stream.queue = r.viewAtTake.view.stream.queue := by
  rw [atTake, LiveView.live_chronicle]
  rfl

variable {r}

/-- A fresh window is all there, and it is what the view shows. -/
theorem window_of_fresh (fresh : r.shown.fresh = true) :
    r.shown.fftLength.points ≤ r.atTake.live.stream.queue.size
      ∧ r.shown.window.i.toList = r.window.map Sample.i ∧ r.shown.window.q.toList = r.window.map Sample.q := by
  have f := r.fits_viewAtTake
  have queue := r.balanced_atTake.queue_eq
  obtain ⟨held, taken⟩ := LiveView.fresh_take f fresh
  have length : r.shown.fftLength = r.viewAtTake.view.fftLength := by
    rw [shown, taken, (StreamView.shows_showNext _).fftLength]
    rfl
  rw [shown, taken] at fresh
  obtain ⟨window_i, window_q⟩ := f.window_showNext fresh
  refine ⟨?_, ?_, ?_⟩
  · rw [length, queue_viewAtTake]
    exact held
  · rw [window, ← queue, queue_viewAtTake, length, shown, taken]
    exact window_i
  · rw [window, ← queue, queue_viewAtTake, length, shown, taken]
    exact window_q

theorem fresh_of_held (seen : r.viewAtTake.seen = true)
    (held : r.viewAtTake.view.fftLength.points ≤ r.viewAtTake.view.stream.queue.size) : r.shown.fresh = true := by
  rw [shown, LiveView.next, if_pos seen]
  exact r.fits_viewAtTake.fresh_showNext_iff.2 held

/-- Whether a window of samples is stale. -/
theorem isStale_iff (held : r.shown.fftLength.points ≤ r.atTake.live.stream.queue.size) :
    r.IsStale ↔ r.atEnable.underWay = false ∧ r.atTake.clearings = r.atEnable.clearings := by
  have whole := (LiveView.ofConfig r.config).chronicle_append r.before (.command .enable :: r.after)
  rw [IsStale, atTake, whole]
  rw [atTake, whole] at held
  exact r.balanced_atEnable.stale_iff _ (FftLength.points_pos _) held

end Reenabling

/-- **Stale windows.** A fresh window after a stream has been switched on is made of samples in the order of their
arrival. Some of them arrived in sessions that were over by then exactly if no session was under way and the worker has
not emptied the queue since. -/
theorem fresh_window_stale_iff (r : Reenabling) (fresh : r.shown.fresh = true) :
    r.shown.window.i.toList = r.window.map Sample.i ∧ r.shown.window.q.toList = r.window.map Sample.q
      ∧ (r.IsStale ↔ r.atEnable.underWay = false ∧ r.atTake.clearings = r.atEnable.clearings) := by
  obtain ⟨held, window_i, window_q⟩ := Reenabling.window_of_fresh fresh
  exact ⟨window_i, window_q, Reenabling.isStale_iff held⟩

/-! ## An update before the worker wakes -/

namespace Reenabling

/-- A source that opens and starts, and has the same buffer whenever it is asked. -/
def steady (words : Array Int16) : Answers := ⟨.ok "/dev/m2sdr0", .ok (), some words⟩

/-- After a session of one buffer the stream is switched off. The worker waits, the stream is switched on again, and the
view is updated before the worker makes a step. -/
def beforeWaking (words : Array Int16) : Reenabling where
  config := .narrow
  before := List.replicate 12 (.work (steady words)) ++ .command .disable :: List.replicate 5 (.work (steady words))
  after := [.look]

theorem queue_beforeWaking (words : Array Int16) : (beforeWaking words).viewAtTake.view.stream.queue
    = (SampleQueue.ofCapacity 128).clear.push ((Receiver.acquisitionOf .narrow).worker.layout.channels words) :=
  rfl

theorem fresh_beforeWaking (words : Array Int16) (enough : 256 ≤ words.size) :
    (beforeWaking words).shown.fresh = true := by
  refine fresh_of_held rfl ?_
  rw [queue_beforeWaking, SampleQueue.size_push, ← Channels.length_toList, Demux.toList_channels, Demux.length_samples,
    ← SampleQueue.length_toList, SampleQueue.toList_clear, List.length_nil, Nat.zero_add]
  show 128 ≤ min (words.size / 2) 128
  omega

end Reenabling

theorem fresh_window_beforeWaking : (Reenabling.beforeWaking (Array.replicate 256 0)).shown.fresh = true
    ∧ (Reenabling.beforeWaking (Array.replicate 256 0)).IsStale := by
  have fresh := Reenabling.fresh_beforeWaking (Array.replicate 256 0) (by simp)
  exact ⟨fresh, (fresh_window_stale_iff _ fresh).2.2.2 ⟨rfl, rfl⟩⟩

/-- So switching a stream on does not keep samples of earlier sessions from being shown as fresh: the view may come
before the worker. -/
theorem not_forall_fresh_not_stale : ¬∀ r : Reenabling, r.shown.fresh = true →
    r.atEnable.live.stream.control.state = .waitingForEnable → ¬r.IsStale := by
  intro never
  have fresh := Reenabling.fresh_beforeWaking (Array.replicate 256 0) (by simp)
  obtain ⟨held, -, -⟩ := Reenabling.window_of_fresh fresh
  exact never _ fresh rfl ((Reenabling.isStale_iff held).2 ⟨rfl, rfl⟩)

end Panadapter
