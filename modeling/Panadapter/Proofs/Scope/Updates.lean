import Panadapter.Proofs.Scope.Spectra

/-!
# Updates that find nothing new

An update may find its stream switched off, or the queue short of a window. Then the view goes on showing what it has.

* Without a window the update takes nothing (`StreamView.Fits.takeWindow_of_short`), and all that may change is the
  waterfall with its cadence (`StreamView.Fits.showNext_of_short`).
* A stream that is switched off is left alone, however often its view is updated
  (`StreamView.nextAll_updates_of_off`).
* What an update does to any view that anything may have come to: `update_takes_or_keeps`.
-/

namespace Panadapter

namespace StreamView

variable {v : StreamView}

/-- Without a window nothing is taken, and the view is not fresh. -/
theorem Fits.takeWindow_of_short (f : v.Fits) (short : v.stream.queue.size < v.fftLength.points) :
    v.takeWindow = { v with fresh := false } := by
  have stale : v.takeWindow.fresh = false := Bool.eq_false_iff.2 (f.takeWindow_short (Nat.not_le.2 short)).1
  have refused : v.stream.queue.drainWindow v.fftLength.points v.drain v.window = (false, v.window, v.stream.queue) :=
    SampleQueue.drainWindow_refused stale
  rw [StreamView.takeWindow, refused]

/-- Then the waterfall may go on with the old spectrum, and everything else stays. -/
theorem Fits.showNext_of_short (f : v.Fits) (short : v.stream.queue.size < v.fftLength.points) :
    ∃ cadence waterfall, v.showNext.2 = { v with fresh := false, cadence, waterfall } := by
  have kept := f.takeWindow_of_short short
  by_cases spectral : v.mode = .spectrum
  · obtain ⟨cadence, waterfall, shown⟩ := showNext_stale spectral (f.takeWindow_short (Nat.not_le.2 short)).1
    exact ⟨cadence, waterfall, by rw [shown, kept]⟩
  · exact ⟨v.cadence, v.waterfall, by rw [showNext_samples spectral, kept]⟩

theorem update_of_off (off : v.stream.control.enabled = false) : v.update.2 = { v with fresh := false } := by
  simp [update, off]

theorem update_of_on (on : v.stream.control.enabled = true) : v.update = v.showNext := by
  simp [update, on]

/-- A stream that is switched off is left alone: further updates find what the first one left. -/
theorem nextAll_updates_of_off (off : v.stream.control.enabled = false) (more : Nat) :
    v.nextAll (List.replicate (more + 1) .update) = { v with fresh := false } := by
  induction more with
  | zero => exact update_of_off off
  | succ more ih =>
    rw [List.replicate_succ', nextAll_append, ih]
    exact update_of_off off

end StreamView

/-- **Updates take a window or keep the old one.** Whatever has come to a view, and whatever stream it finds: an update
is fresh exactly if the stream is switched on and a window is queued, and then the window is the oldest one of the
queue. Otherwise the window, the spectrum, the peak and the stream with its queue are as they were. If the stream is
switched off everything else is too, so that any number of updates is as good as one. -/
theorem update_takes_or_keeps (planner : Planner) (c : StreamConfig) (stream : Stream) (events : List DisplayEvent)
    (found : Stream) :
    let v : StreamView := { (StreamView.ofConfig planner c stream).nextAll events with stream := found }
    let w := v.next .update
    (w.fresh = true ↔ found.control.enabled = true ∧ v.fftLength.points ≤ found.queue.size)
      ∧ (w.fresh = true → w.window = .ofSamples (found.queue.toList.take v.fftLength.points))
      ∧ (w.fresh = false → w.window = v.window ∧ w.spectrum = v.spectrum ∧ w.peak = v.peak ∧ w.stream = found)
      ∧ (found.control.enabled = false → w = { v with fresh := false }
        ∧ ∀ more, v.nextAll (List.replicate (more + 1) .update) = w) := by
  intro v w
  have f : v.Fits := ((StreamView.fits_ofConfig planner c stream).nextAll events).withStream found
  have fresh_iff : w.fresh = true ↔ found.control.enabled = true ∧ v.fftLength.points ≤ found.queue.size :=
    f.fresh_update_iff
  refine ⟨fresh_iff, ?_, ?_, ?_⟩
  · intro fresh
    obtain ⟨on, held⟩ := fresh_iff.1 fresh
    have shown : w = v.showNext.2 := congrArg Prod.snd (StreamView.update_of_on on)
    rw [shown, v.shows_showNext.window]
    exact (f.takeWindow_held held).2
  · intro stale
    cases on : found.control.enabled with
    | false =>
      have shown : w = { v with fresh := false } := StreamView.update_of_off on
      rw [shown]
      exact ⟨rfl, rfl, rfl, rfl⟩
    | true =>
      have short : found.queue.size < v.fftLength.points :=
        Nat.not_le.1 fun held => Bool.eq_false_iff.1 stale (fresh_iff.2 ⟨on, held⟩)
      obtain ⟨cadence, waterfall, kept⟩ := f.showNext_of_short short
      have shown : w = v.showNext.2 := congrArg Prod.snd (StreamView.update_of_on on)
      rw [shown, kept]
      exact ⟨rfl, rfl, rfl, rfl⟩
  · intro off
    have shown : w = { v with fresh := false } := StreamView.update_of_off off
    exact ⟨shown, fun more => (StreamView.nextAll_updates_of_off off more).trans shown.symm⟩

end Panadapter
