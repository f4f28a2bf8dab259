import Panadapter.Proofs.Scope.Histories
import Panadapter.Proofs.Spectrum.Caching

/-!
# The spectrum beside its window

An update takes a window from the queue in every mode, but it computes a spectrum only when spectra are shown. So a view
that showed samples for a while has a window that is newer than its spectrum.

* What an update does, mode by mode (`StreamView.showNext_samples`, `StreamView.showNext_stale`,
  `StreamView.showNext_taken`).
* `Viewing`: a view with the windows that its fresh updates have taken (`StreamView.Fits.isSome_taking?_iff`).
* The window is the last one taken, and the spectrum is that of the last one taken while spectra were shown
  (`Viewing.Sound.nextAll`).
* Hence a frame shows the spectrum of its window exactly if these two have the same spectrum (`shown_spectrum_iff`).
-/

namespace Panadapter

/-- Samples in two channels. -/
def Channels.ofSamples (samples : List Sample) : Channels :=
  ⟨(samples.map Sample.i).toArray, (samples.map Sample.q).toArray⟩

theorem Channels.eq_ofSamples {c : Channels} {samples : List Sample} (i : c.i.toList = samples.map Sample.i)
    (q : c.q.toList = samples.map Sample.q) : c = .ofSamples samples := by
  cases c
  simp only [ofSamples, ← i, ← q, Array.toArray_toList]

@[simp] theorem Channels.toList_ofSamples (samples : List Sample) : (ofSamples samples).toList = samples := by
  simp [ofSamples, toList, List.zipWith_map]

/-- The spectrum of a window as a source gives it, where plans come from a planner. -/
def SpectrumSource.spectrumOf (source : SpectrumSource) (planner : Planner) (length : FftLength) (window : Channels) :
    Array Float32 :=
  match source with
  | software => (planner.plan length).spectrum window
  | hardware => Array.zipWith magnitude window.i window.q

/-- A window of a length has the spectrum that the plan of this length computes beside an empty scratch. -/
theorem SpectralProcessor.PlannedBy.compute? {planner : Planner} {p : SpectralProcessor} (planned : p.PlannedBy planner)
    (ignores : planner.IgnoresScratch) {length : FftLength} {window : Channels} (i : window.i.size = length.points)
    (q : window.q.size = length.points) :
    ∃ p' : SpectralProcessor, p.compute? window planner = .ok ((planner.plan length).spectrum window, p')
      ∧ p'.PlannedBy planner := by
  obtain ⟨plan, t⟩ := p.transforms_of_size planner i q
  have size : window.size = length.points := by rw [Channels.size, i, q, Nat.min_self]
  exact ⟨_, compute?_of_ok (t.answer_eq planned ignores size), t.plannedBy planned⟩

namespace StreamView

/-! ## What an update does -/

variable {v : StreamView}

/-- The waterfall is fed from the spectrum, which stays. -/
theorem feedWaterfall_eq (v : StreamView) :
    ∃ cadence waterfall, v.feedWaterfall = { v with cadence, waterfall } := by
  unfold feedWaterfall
  split
  · split
    · exact ⟨_, _, rfl⟩
    · exact ⟨_, v.waterfall, rfl⟩
  · exact ⟨v.cadence, v.waterfall, rfl⟩

/-- The spectrum of a window that fits, and the peak with it. -/
theorem Fits.refresh (f : v.Fits) (planned : v.processor.PlannedBy v.planner) (ignores : v.planner.IgnoresScratch) :
    ∃ processor : SpectralProcessor, processor.PlannedBy v.planner ∧
      v.refresh = .ok { v with
        processor
        spectrum := v.source.spectrumOf v.planner v.fftLength v.window
        peak := peak? (v.source.spectrumOf v.planner v.fftLength v.window) } := by
  unfold StreamView.refresh
  cases v.source with
  | software =>
    obtain ⟨processor, computed, planned'⟩ := planned.compute? ignores f.i f.q
    refine ⟨processor, planned', ?_⟩
    rw [computed]
    rfl
  | hardware =>
    refine ⟨v.processor, planned, ?_⟩
    rw [magnitudes?, if_pos (f.i.trans f.q.symm)]
    rfl

/-- A window that is queued is taken. -/
theorem Fits.takeWindow_held (f : v.Fits) (held : v.fftLength.points ≤ v.stream.queue.size) :
    v.takeWindow.fresh = true
      ∧ v.takeWindow.window = .ofSamples (v.stream.queue.toList.take v.fftLength.points) := by
  have fresh := f.fresh_showNext_iff.2 held
  obtain ⟨i, q⟩ := f.window_showNext fresh
  rw [v.shows_showNext.window] at i q
  exact ⟨v.shows_showNext.fresh ▸ fresh, Channels.eq_ofSamples i q⟩

/-- Samples go with it by the rule of the view. -/
theorem Fits.size_showNext_held (f : v.Fits) (held : v.fftLength.points ≤ v.stream.queue.size) :
    v.showNext.2.stream.queue.size
      = v.stream.queue.size - v.drain.discarded v.fftLength.points v.stream.queue.size := by
  rw [v.shows_showNext.stream]
  have fresh : (v.stream.queue.drainWindow v.fftLength.points v.drain v.window).1 = true := (f.takeWindow_held held).1
  rcases taken : v.stream.queue.drainWindow v.fftLength.points v.drain v.window with ⟨done, filled, rest⟩
  obtain rfl : done = true := by simpa [taken] using fresh
  have left : v.takeWindow.stream.queue = rest := by
    show (v.stream.queue.drainWindow v.fftLength.points v.drain v.window).2.2 = rest
    rw [taken]
  rw [left]
  exact (SampleQueue.drains_of_drainWindow taken).size_rest

/-- Without one, the old window stays. -/
theorem Fits.takeWindow_short (f : v.Fits) (short : ¬v.fftLength.points ≤ v.stream.queue.size) :
    ¬v.takeWindow.fresh = true ∧ v.takeWindow.window = v.window := by
  have stale : ¬v.takeWindow.fresh = true := v.shows_showNext.fresh ▸ mt f.fresh_showNext_iff.1 short
  have refused : v.stream.queue.drainWindow v.fftLength.points v.drain v.window = (false, v.window, v.stream.queue) :=
    SampleQueue.drainWindow_refused (Bool.eq_false_iff.2 stale)
  refine ⟨stale, ?_⟩
  show (v.stream.queue.drainWindow v.fftLength.points v.drain v.window).2.1 = v.window
  rw [refused]

/-- While samples are shown, an update takes a window and does nothing else. -/
theorem showNext_samples (samples : v.mode ≠ .spectrum) : v.showNext.2 = v.takeWindow := by
  have mode : v.takeWindow.mode ≠ .spectrum := samples
  unfold showNext
  dsimp only
  rw [if_pos mode]

/-- Without a window, the old one and its spectrum stay. -/
theorem showNext_stale (spectral : v.mode = .spectrum) (stale : ¬v.takeWindow.fresh = true) :
    ∃ cadence waterfall, v.showNext.2 = { v.takeWindow with cadence, waterfall } := by
  have mode : ¬v.takeWindow.mode ≠ .spectrum := fun other => other spectral
  have fed : v.showNext.2 = v.takeWindow.feedWaterfall := by
    unfold showNext
    dsimp only
    rw [if_neg mode, if_neg stale]
  rw [fed]
  exact feedWaterfall_eq _

/-- With a window, its spectrum is computed. -/
theorem Fits.showNext_taken (f : v.Fits) (planned : v.processor.PlannedBy v.planner)
    (ignores : v.planner.IgnoresScratch) (spectral : v.mode = .spectrum) (fresh : v.takeWindow.fresh = true) :
    ∃ processor : SpectralProcessor, processor.PlannedBy v.planner ∧ ∃ cadence waterfall,
      v.showNext.2 = { v.takeWindow with
        processor
        spectrum := v.source.spectrumOf v.planner v.fftLength v.takeWindow.window
        peak := peak? (v.source.spectrumOf v.planner v.fftLength v.takeWindow.window)
        cadence
        waterfall } := by
  have mode : ¬v.takeWindow.mode ≠ .spectrum := fun other => other spectral
  obtain ⟨processor, planned', refreshed⟩ := f.takeWindow.refresh planned ignores
  refine ⟨processor, planned', ?_⟩
  unfold StreamView.showNext
  dsimp only
  rw [if_neg mode, if_pos fresh, refreshed]
  exact feedWaterfall_eq _

theorem mode_next_update (v : StreamView) : (v.next .update).mode = v.mode := by
  show v.update.2.mode = v.mode
  unfold update
  split
  · rfl
  · exact v.shows_showNext.mode

end StreamView

/-! ## Windows taken -/

/-- A window that an update has taken, and what was shown then. -/
structure Taking where
  window : Channels
  mode : DisplayMode

/-- What the next update of a view takes, if its stream is switched on and a window is queued. -/
def StreamView.taking? (v : StreamView) : Option Taking :=
  if v.stream.control.enabled = true ∧ v.fftLength.points ≤ v.stream.queue.size then
    some ⟨.ofSamples (v.stream.queue.toList.take v.fftLength.points), v.mode⟩
  else none

/-- Windows are taken by the updates that are fresh. -/
theorem StreamView.Fits.isSome_taking?_iff {v : StreamView} (f : v.Fits) :
    v.taking?.isSome = true ↔ (v.next .update).fresh = true := by
  show _ ↔ v.update.2.fresh = true
  rw [f.fresh_update_iff, taking?]
  split <;> simp_all

/-- A view, and the windows taken since its length changed, the last one first. -/
structure Viewing where
  view : StreamView
  takings : List Taking

namespace Viewing

/-- The view of a configuration that nothing has come to. -/
def ofConfig (planner : Planner) (c : StreamConfig) (stream : Stream) : Viewing := ⟨.ofConfig planner c stream, []⟩

/-- How things stand after an event. -/
def next (x : Viewing) (e : DisplayEvent) : Viewing where
  view := x.view.next e
  takings :=
    match e with
    | .update => x.view.taking?.toList ++ x.takings
    | .command (.setFftLength length) => if length = x.view.fftLength then x.takings else []
    | _ => x.takings

/-- How things stand after events in order. -/
def nextAll (x : Viewing) (events : List DisplayEvent) : Viewing := events.foldl next x

theorem nextAll_cons (x : Viewing) (e : DisplayEvent) (events : List DisplayEvent) :
    x.nextAll (e :: events) = (x.next e).nextAll events := rfl

theorem view_nextAll (x : Viewing) (events : List DisplayEvent) :
    (x.nextAll events).view = x.view.nextAll events := by
  induction events generalizing x with
  | nil => rfl
  | cons e rest ih => exact ih (x.next e)

variable (x : Viewing)

/-- The last window taken while spectra were shown. -/
def lastSpectral : Option Taking := x.takings.find? (·.mode == .spectrum)

/-- The last window is among those taken while spectra were shown if spectra were shown when it was taken. -/
theorem lastSpectral_eq_head? (current : ∀ t ∈ x.takings.head?, t.mode = .spectrum) :
    x.lastSpectral = x.takings.head? := by
  unfold lastSpectral
  cases takings : x.takings with
  | nil => rfl
  | cons t rest =>
    rw [takings] at current
    simp [current t rfl]

/-- A window that was taken, or zeros. -/
def windowOf (t? : Option Taking) : Channels := t?.elim (.zeros x.view.fftLength.points) Taking.window

/-- The spectrum of a window that was taken, or zeros. -/
def spectrumOf (t? : Option Taking) : Array Float32 :=
  t?.elim (Array.replicate x.view.fftLength.points 0) fun t =>
    x.view.source.spectrumOf x.view.planner x.view.fftLength t.window

/-- A view whose window is the last one taken, and whose spectrum and peak are those of the last one taken while spectra
were shown. -/
structure Sound (planner : Planner) (source : SpectrumSource) : Prop where
  fits : x.view.Fits
  planner : x.view.planner = planner
  source : x.view.source = source
  planned : x.view.processor.PlannedBy x.view.planner
  window : x.view.window = x.windowOf x.takings.head?
  spectrum : x.view.spectrum = x.spectrumOf x.lastSpectral
  peak : x.view.peak = x.lastSpectral.bind fun t => peak? (x.spectrumOf (some t))

theorem sound_ofConfig (planner : Planner) (c : StreamConfig) (stream : Stream) :
    (ofConfig planner c stream).Sound planner c.source where
  fits := StreamView.fits_ofConfig planner c stream
  planner := rfl
  source := rfl
  planned := SpectralProcessor.plannedBy_fresh
  window := rfl
  spectrum := rfl
  peak := rfl

variable {x}

theorem next_update_held (f : x.view.Fits) (on : x.view.stream.control.enabled = true)
    (held : x.view.fftLength.points ≤ x.view.stream.queue.size) :
    x.next .update = ⟨x.view.showNext.2, ⟨x.view.takeWindow.window, x.view.mode⟩ :: x.takings⟩ := by
  simp [next, StreamView.next, StreamView.update, StreamView.taking?, on, held, (f.takeWindow_held held).2]

theorem next_update_short (on : x.view.stream.control.enabled = true)
    (short : ¬x.view.fftLength.points ≤ x.view.stream.queue.size) :
    x.next .update = ⟨x.view.showNext.2, x.takings⟩ := by
  simp [next, StreamView.next, StreamView.update, StreamView.taking?, on, short]

theorem next_update_off (off : x.view.stream.control.enabled = false) :
    x.next .update = ⟨{ x.view with fresh := false }, x.takings⟩ := by
  simp [next, StreamView.next, StreamView.update, StreamView.taking?, off]

/-- Where a drain empties the queue, the update after it takes nothing. -/
theorem takings_switch (f : x.view.Fits) (on : x.view.stream.control.enabled = true)
    (all : x.view.drain = .discardAll) (held : x.view.fftLength.points ≤ x.view.stream.queue.size)
    (mode : DisplayMode) : (x.nextAll [.update, .command (.setMode mode), .update]).takings
      = ⟨.ofSamples (x.view.stream.queue.toList.take x.view.fftLength.points), x.view.mode⟩ :: x.takings := by
  have shows := x.view.shows_showNext
  have empty : x.view.showNext.2.stream.queue.size = 0 := by
    rw [f.size_showNext_held held, all]
    exact Nat.sub_self _
  have short : ¬x.view.showNext.2.fftLength.points ≤ x.view.showNext.2.stream.queue.size := by
    rw [empty, Nat.le_zero]
    exact Nat.ne_of_gt (FftLength.points_pos _)
  have still : x.view.showNext.2.stream.control.enabled = true := by
    rw [shows.stream]
    exact on
  have second : next ⟨{ x.view.showNext.2 with mode }, (x.next .update).takings⟩ .update = _ :=
    next_update_short still short
  show (next ⟨{ (x.next .update).view with mode }, (x.next .update).takings⟩ .update).takings = _
  rw [next_update_held f on held] at second ⊢
  rw [second, (f.takeWindow_held held).2]

variable {planner : Planner} {source : SpectrumSource}

namespace Sound

section

variable (s : x.Sound planner source) (ignores : planner.IgnoresScratch)

include s ignores

/-- An update that takes a window computes its spectrum if spectra are shown. -/
theorem taken (held : x.view.fftLength.points ≤ x.view.stream.queue.size) :
    Sound ⟨x.view.showNext.2, ⟨x.view.takeWindow.window, x.view.mode⟩ :: x.takings⟩ planner source := by
  obtain ⟨fresh, -⟩ := s.fits.takeWindow_held held
  by_cases spectral : x.view.mode = .spectrum
  · obtain ⟨processor, planned, cadence, waterfall, computed⟩ :=
      s.fits.showNext_taken s.planned (s.planner ▸ ignores) spectral fresh
    rw [computed, spectral]
    exact ⟨⟨s.fits.takeWindow.i, s.fits.takeWindow.q⟩, s.planner, s.source, planned, rfl, rfl, rfl⟩
  · have other : (x.view.mode == .spectrum) = false := beq_eq_false_iff_ne.2 spectral
    have last : lastSpectral ⟨x.view.takeWindow, ⟨x.view.takeWindow.window, x.view.mode⟩ :: x.takings⟩
        = x.lastSpectral := by simp [lastSpectral, other]
    rw [StreamView.showNext_samples spectral]
    refine ⟨s.fits.takeWindow, s.planner, s.source, s.planned, rfl, ?_, ?_⟩
    · rw [last]
      exact s.spectrum
    · rw [last]
      exact s.peak

omit ignores in
/-- An update that takes none computes nothing. -/
theorem missed (short : ¬x.view.fftLength.points ≤ x.view.stream.queue.size) :
    Sound ⟨x.view.showNext.2, x.takings⟩ planner source := by
  obtain ⟨stale, window⟩ := s.fits.takeWindow_short short
  by_cases spectral : x.view.mode = .spectrum
  · obtain ⟨cadence, waterfall, kept⟩ := StreamView.showNext_stale spectral stale
    rw [kept]
    exact ⟨⟨s.fits.takeWindow.i, s.fits.takeWindow.q⟩, s.planner, s.source, s.planned, window.trans s.window,
      s.spectrum, s.peak⟩
  · rw [StreamView.showNext_samples spectral]
    exact ⟨s.fits.takeWindow, s.planner, s.source, s.planned, window.trans s.window, s.spectrum, s.peak⟩

theorem update : (x.next .update).Sound planner source := by
  cases on : x.view.stream.control.enabled with
  | false =>
    rw [next_update_off on]
    exact ⟨⟨s.fits.i, s.fits.q⟩, s.planner, s.source, s.planned, s.window, s.spectrum, s.peak⟩
  | true =>
    by_cases held : x.view.fftLength.points ≤ x.view.stream.queue.size
    · rw [next_update_held s.fits on held]
      exact s.taken ignores held
    · rw [next_update_short on held]
      exact s.missed held

omit ignores in
theorem command (c : StreamCommand) : (x.next (.command c)).Sound planner source := by
  have fits := s.fits.apply c
  cases c with
  | setFftLength length =>
    by_cases same : length = x.view.fftLength
    · have kept : x.next (.command (.setFftLength length)) = x := by
        simp [Viewing.next, StreamView.next, StreamView.apply, StreamView.setFftLength, same]
      exact kept.symm ▸ s
    · have changed : x.next (.command (.setFftLength length)) = ⟨{ x.view with
          fftLength := length
          window := .zeros length.points
          spectrum := Array.replicate length.points 0
          peak := none }, []⟩ := by
        simp [Viewing.next, StreamView.next, StreamView.apply, StreamView.setFftLength, same]
      rw [changed]
      exact ⟨⟨Array.size_replicate, Array.size_replicate⟩, s.planner, s.source, s.planned, rfl, rfl, rfl⟩
  | _ => exact ⟨fits, s.planner, s.source, s.planned, s.window, s.spectrum, s.peak⟩

/-- Every event keeps a view sound. -/
theorem next (e : DisplayEvent) : (x.next e).Sound planner source := by
  cases e with
  | write w => exact ⟨s.fits.withStream _, s.planner, s.source, s.planned, s.window, s.spectrum, s.peak⟩
  | command c => exact s.command c
  | update => exact s.update ignores

/-- Every run does. -/
theorem nextAll (events : List DisplayEvent) : (x.nextAll events).Sound planner source := by
  induction events generalizing x with
  | nil => exact s
  | cons e rest ih => exact ih (s.next ignores e)

end

end Sound

/-! ## Frames -/

/-- Whether the spectrum in the frame is that of the window in the frame, or zeros if no window has been taken since the
length changed. -/
def ShowsSpectrum (x : Viewing) : Prop :=
  x.view.frame.spectrum = if x.takings.isEmpty then Array.replicate x.view.fftLength.points 0
    else x.view.source.spectrumOf x.view.planner x.view.fftLength x.view.frame.window

namespace Sound

variable (s : x.Sound planner source) (spectral : x.view.frame.mode = .spectrum)

include s

theorem frame_window : x.view.frame.window = x.windowOf x.takings.head? := s.window

include spectral

theorem frame_spectrum : x.view.frame.spectrum = x.spectrumOf x.lastSpectral := by
  have mode : x.view.mode = .spectrum := spectral
  rw [← s.spectrum]
  simp [StreamView.frame, mode]

/-- The peak goes with the spectrum. -/
theorem frame_peak {p : Nat × Float32} (peak : x.view.frame.peak = some p) :
    peak? x.view.frame.spectrum = some p := by
  have mode : x.view.mode = .spectrum := spectral
  have kept : x.view.peak = some p := by simpa [StreamView.frame, mode] using peak
  rw [s.peak] at kept
  obtain ⟨t, last, found⟩ := Option.bind_eq_some_iff.1 kept
  rw [s.frame_spectrum spectral, last]
  exact found

theorem showsSpectrum_iff : x.ShowsSpectrum ↔ x.spectrumOf x.lastSpectral = x.spectrumOf x.takings.head? := by
  rw [ShowsSpectrum, s.frame_spectrum spectral, s.frame_window]
  cases x.takings <;> rfl

end Sound

end Viewing

/-- **Spectra and their windows.** Let what a transform makes of a window not depend on its scratch. Whatever comes to a
view, a frame that shows a spectrum shows the last window taken since the length changed, and the spectrum of the last
one that was taken while spectra were shown; zeros stand for either if there was none, and a peak is that of the
spectrum. So the spectrum is that of the window exactly if these two have the same spectrum, as they have if the last
window was taken while spectra were shown. -/
theorem shown_spectrum_iff (planner : Planner) (ignores : planner.IgnoresScratch) (c : StreamConfig) (stream : Stream)
    (events : List DisplayEvent)
    (spectral : ((Viewing.ofConfig planner c stream).nextAll events).view.frame.mode = .spectrum) :
    let x := (Viewing.ofConfig planner c stream).nextAll events
    x.view = (StreamView.ofConfig planner c stream).nextAll events ∧ x.view.planner = planner
      ∧ x.view.source = c.source
      ∧ x.view.frame.window = x.windowOf x.takings.head?
      ∧ x.view.frame.spectrum = x.spectrumOf x.lastSpectral
      ∧ (∀ p, x.view.frame.peak = some p → peak? x.view.frame.spectrum = some p)
      ∧ (x.ShowsSpectrum ↔ x.spectrumOf x.lastSpectral = x.spectrumOf x.takings.head?)
      ∧ ((∀ t ∈ x.takings.head?, t.mode = .spectrum) → x.ShowsSpectrum) := by
  intro x
  have s : x.Sound planner c.source := (Viewing.sound_ofConfig planner c stream).nextAll ignores events
  refine ⟨Viewing.view_nextAll _ events, s.planner, s.source, s.frame_window, s.frame_spectrum spectral,
    fun p => s.frame_peak spectral, s.showsSpectrum_iff spectral, fun current => ?_⟩
  refine (s.showsSpectrum_iff spectral).2 ?_
  rw [x.lastSpectral_eq_head? current]

/-! ## Spectra after samples -/

/-- A stream as `StreamConfig.narrow`, whose samples are bins. -/
def StreamConfig.narrowBins : StreamConfig := { StreamConfig.narrow with source := .hardware }

/-- A window is taken while samples are shown, and then spectra are shown. -/
def DisplayEvent.switching (window : Channels) : List DisplayEvent :=
  [.write (.push window), .update, .command (.setMode .spectrum), .update]

namespace Viewing

/-- A view that has got a full window. -/
def filled (window : List Sample) : Viewing :=
  (ofConfig .ofRoots .narrowBins (.ofName "raw" true 128)).next (.write (.push (.ofSamples window)))

/-- The view that has taken the window while samples were shown. -/
def switched (window : List Sample) : Viewing :=
  (ofConfig .ofRoots .narrowBins (.ofName "raw" true 128)).nextAll (DisplayEvent.switching (.ofSamples window))

theorem sound_switched (window : List Sample) : (switched window).Sound .ofRoots .hardware :=
  (sound_ofConfig ..).nextAll Planner.ignoresScratch_ofRoots _

theorem mode_switching (x : Viewing) (new : Channels) :
    (x.nextAll (DisplayEvent.switching new)).view.frame.mode = .spectrum := StreamView.mode_next_update _

theorem mode_switched (window : List Sample) : (switched window).view.frame.mode = .spectrum := by
  rw [switched, mode_switching]

section

variable {window : List Sample} (long : window.length = 128)

include long

theorem toList_filled : (filled window).view.stream.queue.toList = window := by
  show ((SampleQueue.ofCapacity 128).push (.ofSamples window)).toList = window
  have room : (SampleQueue.ofCapacity 128).overflow (Channels.ofSamples window).size = 0 := by
    rw [← Channels.length_toList, Channels.toList_ofSamples, long]
    rfl
  rw [SampleQueue.toList_push, room, Channels.toList_ofSamples]
  rfl

theorem takings_switched : (switched window).takings = [⟨.ofSamples window, .rawIq⟩] := by
  have f : (filled window).view.Fits := (StreamView.fits_ofConfig ..).withStream _
  have queued := toList_filled long
  have points : (filled window).view.fftLength.points = 128 := rfl
  have held : (filled window).view.fftLength.points ≤ (filled window).view.stream.queue.size := by
    rw [← SampleQueue.length_toList, queued, long]
    exact Nat.le_of_eq points
  have taken := takings_switch f rfl rfl held .spectrum
  rw [queued, points, List.take_of_length_le (Nat.le_of_eq long)] at taken
  rw [switched, DisplayEvent.switching, nextAll_cons]
  exact taken

end

/-- The spectrum is all zeros, and that of the window is not. -/
theorem spectra_switched {s : Sample} {rest : List Sample} (long : (s :: rest).length = 128)
    (loud : magnitude s.i s.q ≠ 0) :
    (switched (s :: rest)).spectrumOf (switched (s :: rest)).lastSpectral
      ≠ (switched (s :: rest)).spectrumOf (switched (s :: rest)).takings.head? := by
  have taken := takings_switched long
  have source := (sound_switched (s :: rest)).source
  have points := FftLength.points_pos (switched (s :: rest)).view.fftLength
  generalize switched (s :: rest) = x at taken source points ⊢
  have zeros : x.spectrumOf x.lastSpectral = Array.replicate x.view.fftLength.points 0 := by
    rw [lastSpectral, taken]
    rfl
  have magnitudes : (x.spectrumOf x.takings.head?)[0]? = some (magnitude s.i s.q) := by
    rw [taken]
    simp [spectrumOf, source, SpectrumSource.spectrumOf, Channels.ofSamples]
  intro same
  rw [← same, zeros, Array.getElem?_replicate, if_pos points] at magnitudes
  exact loud (Option.some.inj magnitudes).symm

end Viewing

theorem shown_spectrum_switched : Planner.ofRoots.IgnoresScratch
      ∧ (Viewing.switched (List.replicate 128 ⟨3, 4⟩)).view.frame.mode = .spectrum
      ∧ ¬(Viewing.switched (List.replicate 128 ⟨3, 4⟩)).ShowsSpectrum := by
  have ignores := Planner.ignoresScratch_ofRoots
  have spectral := Viewing.mode_switched (List.replicate 128 ⟨3, 4⟩)
  obtain ⟨-, -, -, -, -, -, shown_iff, -⟩ :=
    shown_spectrum_iff .ofRoots ignores .narrowBins (.ofName "raw" true 128) _ spectral
  exact ⟨ignores, spectral, fun shown => Viewing.spectra_switched rfl (by decide +kernel) (shown_iff.1 shown)⟩

/-- So a spectrum may be shown beside a window that is not its own. -/
theorem not_forall_shows_spectrum : ¬∀ (c : StreamConfig) (stream : Stream) (events : List DisplayEvent),
    ((Viewing.ofConfig .ofRoots c stream).nextAll events).view.frame.mode = .spectrum →
      ((Viewing.ofConfig .ofRoots c stream).nextAll events).ShowsSpectrum := by
  intro always
  have spectral := Viewing.mode_switched (List.replicate 128 ⟨3, 4⟩)
  have shown : (Viewing.switched (List.replicate 128 ⟨3, 4⟩)).ShowsSpectrum := always _ _ _ spectral
  have same := ((Viewing.sound_switched _).showsSpectrum_iff spectral).1 shown
  exact Viewing.spectra_switched rfl (by decide +kernel) same

end Panadapter
