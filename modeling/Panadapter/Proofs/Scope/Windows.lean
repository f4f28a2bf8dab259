import Panadapter.Scope.View

/-!
# The window of a view

A view has room for one window (`StreamView.Fits`), and nothing that happens to it changes that. An update takes its
window from the queue and leaves the spectrum and the waterfall to follow from it (`StreamView.Shows`).

* An update of a stream that is switched on is fresh exactly if the queue holds a window
  (`StreamView.Fits.fresh_update_iff`).
-/

namespace Panadapter

namespace StreamView

/-- A view whose arrays have room for exactly one window. -/
structure Fits (v : StreamView) : Prop where
  i : v.window.i.size = v.fftLength.points
  q : v.window.q.size = v.fftLength.points

/-- Two views that agree in all that has to do with the window. -/
structure Shows (v w : StreamView) : Prop where
  stream : w.stream = v.stream
  mode : w.mode = v.mode
  drain : w.drain = v.drain
  fftLength : w.fftLength = v.fftLength
  window : w.window = v.window
  fresh : w.fresh = v.fresh

theorem Shows.refl (v : StreamView) : v.Shows v := ⟨rfl, rfl, rfl, rfl, rfl, rfl⟩

theorem Shows.trans {u v w : StreamView} (h : u.Shows v) (h' : v.Shows w) : u.Shows w :=
  ⟨h'.stream.trans h.stream, h'.mode.trans h.mode, h'.drain.trans h.drain, h'.fftLength.trans h.fftLength,
    h'.window.trans h.window, h'.fresh.trans h.fresh⟩

/-- A refresh writes the spectrum with what belongs to it, and nothing else. -/
theorem eq_of_refresh {v w : StreamView} (h : v.refresh = .ok w) :
    ∃ processor spectrum peak, w = { v with processor, spectrum, peak } := by
  unfold refresh at h
  cases source : v.source with
  | software =>
    rw [source] at h
    cases computed : v.processor.compute? v.window v.planner with
    | error e => rw [computed] at h; cases h
    | ok result =>
      rw [computed] at h
      cases h
      exact ⟨_, _, _, rfl⟩
  | hardware =>
    rw [source] at h
    cases computed : magnitudes? v.window with
    | error e => rw [computed] at h; cases h
    | ok spectrum =>
      rw [computed] at h
      cases h
      exact ⟨v.processor, _, _, rfl⟩

theorem shows_refresh {v w : StreamView} (h : v.refresh = .ok w) : v.Shows w := by
  obtain ⟨processor, spectrum, peak, rfl⟩ := eq_of_refresh h
  exact ⟨rfl, rfl, rfl, rfl, rfl, rfl⟩

theorem shows_feedWaterfall (v : StreamView) : v.Shows v.feedWaterfall := by
  unfold feedWaterfall
  split
  · split <;> exact ⟨rfl, rfl, rfl, rfl, rfl, rfl⟩
  · exact .refl v

/-- Behind the window nothing else happens to it. -/
theorem shows_showNext (v : StreamView) : v.takeWindow.Shows v.showNext.2 := by
  unfold showNext
  dsimp only
  split
  · exact .refl _
  · split
    · split
      · exact .refl _
      · rename_i refreshed
        exact (shows_refresh refreshed).trans (shows_feedWaterfall _)
    · exact shows_feedWaterfall _

/-! ## Room for a window -/

theorem fits_ofConfig (planner : Planner) (c : StreamConfig) (stream : Stream) : (ofConfig planner c stream).Fits :=
  ⟨Array.size_replicate, Array.size_replicate⟩

namespace Fits

variable {v : StreamView}

theorem of_shows {w : StreamView} (f : v.Fits) (h : v.Shows w) : w.Fits := by
  refine ⟨?_, ?_⟩
  · rw [h.window, h.fftLength]
    exact f.i
  · rw [h.window, h.fftLength]
    exact f.q

/-- The queue is not among what has to fit. -/
theorem withStream (f : v.Fits) (stream : Stream) : Fits { v with stream } := ⟨f.i, f.q⟩

theorem apply (f : v.Fits) (c : StreamCommand) : (v.apply c).Fits := by
  cases c with
  | setFftLength length =>
    show (v.setFftLength length).Fits
    unfold setFftLength
    split
    · exact f
    · exact ⟨Array.size_replicate, Array.size_replicate⟩
  | _ => exact ⟨f.i, f.q⟩

theorem takeWindow (f : v.Fits) : v.takeWindow.Fits := by
  have kept := v.stream.queue.size_drainWindow v.fftLength.points v.drain v.window
  exact ⟨kept.1.trans f.i, kept.2.trans f.q⟩

theorem showNext (f : v.Fits) : v.showNext.2.Fits := f.takeWindow.of_shows v.shows_showNext

/-- A window that fits has a spectrum, wherever plans come from. -/
theorem exists_refresh (f : v.Fits) : ∃ w, v.refresh = .ok w := by
  unfold StreamView.refresh
  cases v.source with
  | software =>
    obtain ⟨bins, processor, computed, -⟩ := v.processor.compute?_of_size v.planner f.i f.q
    rw [computed]
    exact ⟨_, rfl⟩
  | hardware =>
    rw [magnitudes?, if_pos (f.i.trans f.q.symm)]
    exact ⟨_, rfl⟩

/-- So nothing is found wrong with it. -/
theorem fst_showNext (f : v.Fits) : v.showNext.1 = .ok () := by
  obtain ⟨w, refreshed⟩ := f.takeWindow.exists_refresh
  unfold StreamView.showNext
  dsimp only
  rw [refreshed]
  split
  · rfl
  · split <;> rfl

theorem update (f : v.Fits) : v.update.2.Fits := by
  unfold StreamView.update
  split
  · exact ⟨f.i, f.q⟩
  · exact f.showNext

/-- A window is taken exactly if the queue holds one. -/
theorem fresh_showNext_iff (f : v.Fits) : v.showNext.2.fresh = true ↔ v.fftLength.points ≤ v.stream.queue.size := by
  rw [v.shows_showNext.fresh]
  show (v.stream.queue.drainWindow v.fftLength.points v.drain v.window).1 = true ↔ _
  rw [SampleQueue.drainWindow_taken_iff, f.i, f.q]
  have pos := v.fftLength.points_pos
  omega

/-- The window is the oldest one of the queue. -/
theorem window_showNext (f : v.Fits) (fresh : v.showNext.2.fresh = true) :
    v.showNext.2.window.i.toList = (v.stream.queue.toList.take v.fftLength.points).map Sample.i
      ∧ v.showNext.2.window.q.toList = (v.stream.queue.toList.take v.fftLength.points).map Sample.q := by
  rw [v.shows_showNext.fresh] at fresh
  rw [v.shows_showNext.window]
  unfold StreamView.takeWindow at fresh ⊢
  rcases taken : v.stream.queue.drainWindow v.fftLength.points v.drain v.window with ⟨_ | _, filled, rest⟩
  · rw [taken] at fresh
    cases fresh
  · have d := SampleQueue.drains_of_drainWindow taken
    have room : v.window.i.toList.length ≤ v.fftLength.points ∧ v.window.q.toList.length ≤ v.fftLength.points :=
      ⟨Nat.le_of_eq f.i, Nat.le_of_eq f.q⟩
    have filled_i := d.filled_i
    have filled_q := d.filled_q
    rw [List.drop_eq_nil_of_le room.1, List.append_nil] at filled_i
    rw [List.drop_eq_nil_of_le room.2, List.append_nil] at filled_q
    exact ⟨filled_i, filled_q⟩

/-- An update is fresh exactly if the stream is switched on and the queue holds a window. -/
theorem fresh_update_iff (f : v.Fits) :
    v.update.2.fresh = true ↔ v.stream.control.enabled = true ∧ v.fftLength.points ≤ v.stream.queue.size := by
  unfold StreamView.update
  cases v.stream.control.enabled with
  | false => simp
  | true => simpa using f.fresh_showNext_iff

end Fits

end StreamView

/-- A stream of raw samples that is switched on, with a queue for just one window of 128. -/
def StreamConfig.narrow : StreamConfig where
  name := "raw"
  transport := .litepcie { device := "/dev/m2sdr0" }
  enabled := true
  mode := .rawIq
  queueCapacity := 128
  fftLength := ⟨7, by decide, by decide⟩

end Panadapter
