import Panadapter.Proofs.Scope.WindowCapacity

/-!
# The history of a view

A view changes in three ways: a worker writes to its stream, a command comes for it, and it is updated for a frame.

* A step of a worker is at most one write to its stream (`Worker.stream_step`).
* `StreamView.next`, `StreamView.nextAll`: what comes to a view, in any order. The view keeps room for its window
  (`StreamView.Fits.nextAll`).
-/

namespace Panadapter

/-- What a worker writes to its stream. -/
inductive StreamWrite where
  | push (new : Channels)
  | clear
  | publish (state : StreamState)
  | recordBuffer (samples dropped : Nat)
  | countFailure
  | keepReason (reason : String)
  | switchOff

/-- The stream with something written to it. -/
def Stream.write (s : Stream) : StreamWrite → Stream
  | .push new => s.push new
  | .clear => { s with queue := s.queue.clear }
  | .publish state => { s with control := s.control.setState state }
  | .recordBuffer samples dropped => { s with control := s.control.recordBuffer samples dropped }
  | .countFailure => { s with control := s.control.countFailure }
  | .keepReason reason => { s with control := s.control.setLastError reason }
  | .switchOff => s.disable

@[simp] theorem Stream.name_write (s : Stream) (w : StreamWrite) : (s.write w).control.name = s.control.name := by
  cases w <;> rfl

namespace Worker

/-- What the next step of a worker writes. -/
def write? (w : Worker) (s : Stream) : Option StreamWrite :=
  match w.position with
  | .beginning => some (.publish .waitingForEnable)
  | .clearing => some .clear
  | .countingFailure _ => some .countFailure
  | .keepingReason e => some (.keepReason e.message)
  | .switchingOff => some .switchOff
  | .markingFailure => some (.publish .failed)
  | .announcing _ => some (.publish .acquiring)
  | .pushing _ buffer => some (.push buffer)
  | .recording _ samples dropped => some (.recordBuffer samples dropped)
  | .announcingShutdown _ => some (.publish .shuttingDown)
  | .settling => if s.control.state = .shuttingDown then none else some (.publish .waitingForEnable)
  | .ending => some (.publish .stopped)
  | _ => none

/-- A step does nothing else to the stream. -/
theorem stream_step (w : Worker) (answers : Answers) (shutdown : Bool) (s : Stream) :
    (w.step answers shutdown s).2.1 = (w.write? s).elim s s.write := by
  obtain ⟨source, layout, position⟩ := w
  obtain ⟨opened, started, polled⟩ := answers
  cases position with
  | opening => cases opened <;> rfl
  | starting device => cases started <;> rfl
  | polling device => cases polled <;> rfl
  | settling =>
    simp only [step, advance, write?]
    split <;> rfl
  | _ => rfl

end Worker

/-- What can come to a view. -/
inductive DisplayEvent where
  | write (w : StreamWrite)
  | command (c : StreamCommand)
  | update

namespace StreamView

/-- The view after an event. -/
def next (v : StreamView) : DisplayEvent → StreamView
  | .write w => { v with stream := v.stream.write w }
  | .command c => v.apply c
  | .update => v.update.2

/-- The view after events in order. -/
def nextAll (v : StreamView) (events : List DisplayEvent) : StreamView := events.foldl next v

variable (v : StreamView)

theorem nextAll_append (first second : List DisplayEvent) :
    v.nextAll (first ++ second) = (v.nextAll first).nextAll second := List.foldl_append

@[simp] theorem name_next (e : DisplayEvent) : (v.next e).name = v.name := by
  cases e with
  | write w => exact v.stream.name_write w
  | command c => exact v.name_apply c
  | update => exact v.update_keeps.1

variable {v}

/-- Whatever comes to a view, its arrays keep room for exactly one window. -/
theorem Fits.next (f : v.Fits) (e : DisplayEvent) : (v.next e).Fits := by
  cases e with
  | write w => exact f.withStream _
  | command c => exact f.apply c
  | update => exact f.update

theorem Fits.nextAll (f : v.Fits) (events : List DisplayEvent) : (v.nextAll events).Fits := by
  induction events generalizing v with
  | nil => exact f
  | cons e rest ih => exact ih (f.next e)

end StreamView

end Panadapter
