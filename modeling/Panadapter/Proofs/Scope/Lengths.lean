import Mathlib.Algebra.Ring.Nat
import Panadapter.Proofs.Scope.Histories

/-!
# The lengths of a view

A view keeps numbers in several arrays, and what it does copies parts of one into another. The strict operations here
give nothing where a part lies beyond its array, or where a part is copied over one of another length.

* What keeps them going is `StreamView.Level`: the window and the spectrum have the length of the view, and the
  waterfall has all cells of its grid.
* An update of a level view is the strict one, has no fault, and leaves the view level
  (`StreamView.Level.strictUpdate?_eq`).
* Whatever comes to the view of a valid configuration, it is level (`lengths_agree`).
-/

namespace Panadapter

/-! ## Strict operations -/

/-- The part of an array from one place to another, if the places are in order and within the array. -/
def part? (a : Array Float32) (first last : Nat) : Option (Array Float32) :=
  if first ≤ last ∧ last ≤ a.size then some (a.extract first last) else none

/-- An array with all of its numbers replaced by others, if these are as many. -/
def replaced? (a new : Array Float32) : Option (Array Float32) := if new.size = a.size then some new else none

theorem part?_eq {a : Array Float32} {first last : Nat} (order : first ≤ last) (within : last ≤ a.size) :
    part? a first last = some (a.extract first last) := if_pos ⟨order, within⟩

theorem replaced?_eq {a new : Array Float32} (same : new.size = a.size) : replaced? a new = some new := if_pos same

/-- A drain that writes to the first `n` places of both arrays and takes the discarded samples from both channels. -/
def SampleQueue.strictDrain? (q : SampleQueue) (n : Nat) (policy : DrainPolicy) (out : Channels) :
    Option (Bool × Channels × SampleQueue) :=
  if n = 0 ∨ out.i.size < n ∨ out.q.size < n ∨ q.size < n then some (false, out, q)
  else do
    discard (part? out.i 0 n)
    discard (part? out.q 0 n)
    discard (part? q.channels.i 0 (policy.discarded n q.size))
    discard (part? q.channels.q 0 (policy.discarded n q.size))
    return q.drainWindow n policy out

namespace Waterfall

/-- The row in a slot. -/
def strictSlot? (w : Waterfall) (index : Nat) : Option (Array Float32) :=
  part? w.cells (w.slotStart (index % w.height)) (w.slotStart (index % w.height) + w.width)

/-- An append that copies as much of the row to the next slot as there is place for, and fills the rest of the slot. -/
def strictAppend? (w : Waterfall) (row : Array Float32) : Option Waterfall := do
  let slot ← part? w.cells (w.slotStart w.nextSlot) (w.slotStart w.nextSlot + w.width)
  let count := min row.size w.width
  let old ← part? slot 0 count
  let new ← part? row 0 count
  discard (replaced? old new)
  discard (part? slot count slot.size)
  return w.append row

end Waterfall

namespace StreamView

/-- A window taken by a strict drain. -/
def strictTakeWindow? (v : StreamView) : Option StreamView :=
  (v.stream.queue.strictDrain? v.fftLength.points v.drain v.window).map fun (fresh, window, queue) =>
    { v with stream := { v.stream with queue }, window, fresh }

/-- A refresh by a plan whose length is that of the window, which replaces all of the old spectrum. -/
def strictRefresh? (v : StreamView) : Option (Except SpectrumError StreamView) :=
  match v.source with
  | .software =>
    match v.processor.compute? v.window v.planner with
    | .error e => some (.error e)
    | .ok (bins, processor) =>
      if processor.planLength = some v.window.i.size then
        (replaced? v.spectrum bins).map fun spectrum => .ok { v with processor, spectrum, peak := peak? spectrum }
      else none
  | .hardware => some v.refresh

/-- The spectrum as a row of the waterfall, by a strict append. -/
def strictFeedWaterfall? (v : StreamView) : Option StreamView :=
  if v.waterfallShown then
    match v.cadence.tick with
    | (true, cadence) => (v.waterfall.strictAppend? v.spectrum).map fun waterfall => { v with cadence, waterfall }
    | (false, cadence) => some { v with cadence }
  else some v

/-- What is shown next, by strict operations only. -/
def strictShowNext? (v : StreamView) : Option (Except SpectrumError Unit × StreamView) :=
  v.strictTakeWindow?.bind fun v =>
    if v.mode ≠ .spectrum then some (.ok (), v)
    else if v.fresh then
      v.strictRefresh?.bind fun
        | .error e => some (.error e, v)
        | .ok v => v.strictFeedWaterfall?.map fun v => (.ok (), v)
    else v.strictFeedWaterfall?.map fun v => (.ok (), v)

/-- An update by strict operations only. -/
def strictUpdate? (v : StreamView) : Option (Except SpectrumError Unit × StreamView) :=
  if !v.stream.control.enabled then some (.ok (), { v with fresh := false }) else v.strictShowNext?

end StreamView

/-! ## Drains and slots -/

/-- Where the arrays have room for the window, a drain reaches beyond none of them. -/
theorem SampleQueue.strictDrain?_eq {q : SampleQueue} {n : Nat} {policy : DrainPolicy} {out : Channels}
    (i : n ≤ out.i.size) (j : n ≤ out.q.size) : q.strictDrain? n policy out = some (q.drainWindow n policy out) := by
  unfold strictDrain?
  split
  · rename_i refused
    have none : q.drain? n policy = none := drain?_eq_none_iff.2 (by omega)
    rw [drainWindow, if_pos ⟨i, j⟩, none]
  · have discarded := policy.discarded_le n q.size
    have held := q.size_eq_i
    have same := q.size_eq
    rw [part?_eq (Nat.zero_le n) i, part?_eq (Nat.zero_le n) j, part?_eq (Nat.zero_le _) (by omega),
      part?_eq (Nat.zero_le _) (by omega)]
    rfl

namespace Waterfall

/-- A waterfall that has all cells of its grid, and they are no more than a word can count. -/
structure Spans (w : Waterfall) (width height : Nat) : Prop where
  width_eq : w.width = width
  height_eq : w.height = height
  size : w.cells.size = width * height
  lt : width * height < 2 ^ 64

theorem spans_blank {width height : Nat} (wide : 1 ≤ width) (high : 1 ≤ height) (lt : width * height < 2 ^ 64) :
    (blank width height).Spans width height where
  width_eq := Nat.max_eq_left wide
  height_eq := Nat.max_eq_left high
  size := by
    simp only [blank, Array.size_replicate, cellCount, Nat.max_eq_left wide, Nat.max_eq_left high]
    exact Nat.mod_eq_of_lt lt
  lt := lt

namespace Spans

variable {w : Waterfall} {width height : Nat}

theorem append (s : w.Spans width height) (row : Array Float32) : (w.append row).Spans width height :=
  ⟨s.width_eq, s.height_eq, (w.size_cells_append row).trans s.size, s.lt⟩

theorem clear (s : w.Spans width height) : w.clear.Spans width height :=
  ⟨s.width_eq, s.height_eq, Array.size_map.trans s.size, s.lt⟩

/-- A slot lies within the cells. -/
theorem slot_end_le (s : w.Spans width height) {slot : Nat} (lt : slot < w.height) :
    w.slotStart slot + w.width ≤ w.cells.size := by
  have row : slot * width + width ≤ width * height := by
    rw [← Nat.succ_mul, Nat.mul_comm width]
    exact Nat.mul_le_mul_right width (s.height_eq ▸ lt)
  have start : w.slotStart slot ≤ slot * width := by
    rw [slotStart, cellCount, s.width_eq]
    exact Nat.mod_le _ _
  rw [s.size, s.width_eq]
  omega

theorem strictSlot?_eq (s : w.Spans width height) (index : Nat) : w.strictSlot? index = some (w.slot index) :=
  part?_eq (Nat.le_add_right _ _) (s.slot_end_le (Nat.mod_lt _ (Nat.zero_lt_of_lt w.cursor_lt)))

theorem strictAppend?_eq (s : w.Spans width height) (row : Array Float32) :
    w.strictAppend? row = some (w.append row) := by
  have within : w.slotStart w.nextSlot + w.width ≤ w.cells.size :=
    s.slot_end_le (Nat.mod_lt _ (Nat.zero_lt_of_lt w.cursor_lt))
  have size : (w.cells.extract (w.slotStart w.nextSlot) (w.slotStart w.nextSlot + w.width)).size = w.width := by
    rw [Array.size_extract]
    omega
  have short := Nat.min_le_right row.size w.width
  have inside : min row.size w.width
      ≤ (w.cells.extract (w.slotStart w.nextSlot) (w.slotStart w.nextSlot + w.width)).size :=
    size.symm ▸ short
  have old := part?_eq (Nat.zero_le _) inside
  have new := part?_eq (Nat.zero_le _) (Nat.min_le_left row.size w.width)
  have same : (row.extract 0 (min row.size w.width)).size
      = ((w.cells.extract (w.slotStart w.nextSlot) (w.slotStart w.nextSlot + w.width)).extract 0
        (min row.size w.width)).size := by
    rw [Array.size_extract, Array.size_extract, size]
    omega
  rw [strictAppend?, part?_eq (Nat.le_add_right _ _) within]
  show ((part? _ 0 (min row.size w.width)).bind fun old => (part? row 0 (min row.size w.width)).bind fun new =>
    (discard (replaced? old new)).bind fun _ => (discard (part? _ (min row.size w.width) _)).bind fun _ =>
      some (w.append row)) = some (w.append row)
  rw [old, new, Option.bind_some, Option.bind_some, replaced?_eq same, part?_eq inside (Nat.le_refl _)]
  rfl

end Spans

end Waterfall

namespace StreamView

/-! ## Level views -/

/-- A view whose window and spectrum have its length, and whose waterfall has all cells of its grid. -/
structure Level (v : StreamView) (width height : Nat) : Prop extends v.Fits where
  spectrum : v.spectrum.size = v.fftLength.points
  waterfall : v.waterfall.Spans width height

namespace Level

variable {v : StreamView} {width height : Nat}

theorem takeWindow (l : v.Level width height) : v.takeWindow.Level width height :=
  ⟨l.toFits.takeWindow, l.spectrum, l.waterfall⟩

theorem strictTakeWindow?_eq (l : v.Level width height) : v.strictTakeWindow? = some v.takeWindow := by
  rw [strictTakeWindow?, SampleQueue.strictDrain?_eq (Nat.le_of_eq l.i.symm) (Nat.le_of_eq l.q.symm)]
  rfl

theorem refresh (l : v.Level width height) :
    ∃ w, v.refresh = .ok w ∧ v.strictRefresh? = some (.ok w) ∧ w.Level width height := by
  cases source : v.source with
  | software =>
    obtain ⟨bins, processor, computed, size, plan⟩ := v.processor.compute?_of_size v.planner l.i l.q
    have planned : processor.planLength = some v.window.i.size := by rw [plan, l.i]
    refine ⟨{ v with processor, spectrum := bins, peak := peak? bins }, ?_, ?_, ⟨l.i, l.q⟩, size, l.waterfall⟩
    · rw [StreamView.refresh, source, computed]
      rfl
    · rw [strictRefresh?, source, computed]
      dsimp only
      rw [if_pos planned, replaced?_eq (size.trans l.spectrum.symm)]
      rfl
  | hardware =>
    have magnitudes : magnitudes? v.window = .ok (Array.zipWith magnitude v.window.i v.window.q) :=
      if_pos (l.i.trans l.q.symm)
    have size : (Array.zipWith magnitude v.window.i v.window.q).size = v.fftLength.points := by
      rw [Array.size_zipWith, l.i, l.q, Nat.min_self]
    have refreshed : v.refresh = .ok { v with
        spectrum := Array.zipWith magnitude v.window.i v.window.q
        peak := peak? (Array.zipWith magnitude v.window.i v.window.q) } := by
      rw [StreamView.refresh, source, magnitudes]
      rfl
    have strict : v.strictRefresh? = some v.refresh := by rw [strictRefresh?, source]
    exact ⟨_, refreshed, strict.trans (congrArg some refreshed), ⟨l.i, l.q⟩, size, l.waterfall⟩

theorem strictFeedWaterfall?_eq (l : v.Level width height) : v.strictFeedWaterfall? = some v.feedWaterfall := by
  unfold strictFeedWaterfall? StreamView.feedWaterfall
  by_cases shown : v.waterfallShown = true
  · rw [if_pos shown, if_pos shown]
    rcases v.cadence.tick with ⟨_ | _, cadence⟩
    · rfl
    · dsimp only
      rw [l.waterfall.strictAppend?_eq]
      rfl
  · rw [if_neg shown, if_neg shown]

theorem feedWaterfall (l : v.Level width height) : v.feedWaterfall.Level width height := by
  unfold StreamView.feedWaterfall
  split
  · split
    · exact ⟨⟨l.i, l.q⟩, l.spectrum, l.waterfall.append v.spectrum⟩
    · exact ⟨⟨l.i, l.q⟩, l.spectrum, l.waterfall⟩
  · exact l

theorem strictShowNext?_eq (l : v.Level width height) :
    v.strictShowNext? = some v.showNext ∧ v.showNext.1 = .ok () ∧ v.showNext.2.Level width height := by
  have taken := l.takeWindow
  rw [strictShowNext?, l.strictTakeWindow?_eq, Option.bind_some]
  unfold StreamView.showNext
  dsimp only
  by_cases samples : v.takeWindow.mode ≠ .spectrum
  · rw [if_pos samples, if_pos samples]
    exact ⟨rfl, rfl, taken⟩
  · rw [if_neg samples, if_neg samples]
    by_cases fresh : v.takeWindow.fresh = true
    · obtain ⟨w, refreshed, strict, level⟩ := taken.refresh
      rw [if_pos fresh, if_pos fresh, strict, refreshed, Option.bind_some]
      dsimp only
      rw [level.strictFeedWaterfall?_eq]
      exact ⟨rfl, rfl, level.feedWaterfall⟩
    · rw [if_neg fresh, if_neg fresh, taken.strictFeedWaterfall?_eq]
      exact ⟨rfl, rfl, taken.feedWaterfall⟩

/-- An update of a level view does nothing but what strict operations can do, finds no fault and leaves a level view. -/
theorem strictUpdate?_eq (l : v.Level width height) :
    v.strictUpdate? = some v.update ∧ v.update.1 = .ok () ∧ v.update.2.Level width height := by
  unfold strictUpdate? StreamView.update
  cases v.stream.control.enabled with
  | false => exact ⟨rfl, rfl, ⟨l.i, l.q⟩, l.spectrum, l.waterfall⟩
  | true => exact l.strictShowNext?_eq

theorem apply (l : v.Level width height) (c : StreamCommand) : (v.apply c).Level width height := by
  have fits := l.toFits.apply c
  cases c with
  | setFftLength length =>
    show (v.setFftLength length).Level width height
    unfold setFftLength
    split
    · exact l
    · exact ⟨⟨Array.size_replicate, Array.size_replicate⟩, Array.size_replicate, l.waterfall⟩
  | clearWaterfall => exact ⟨fits, l.spectrum, l.waterfall.clear⟩
  | _ => exact ⟨fits, l.spectrum, l.waterfall⟩

/-- Whatever comes to a level view leaves it level. -/
theorem next (l : v.Level width height) (e : DisplayEvent) : (v.next e).Level width height := by
  cases e with
  | write w => exact ⟨l.toFits.withStream _, l.spectrum, l.waterfall⟩
  | command c => exact l.apply c
  | update => exact l.strictUpdate?_eq.2.2

/-- So does every run. -/
theorem nextAll (l : v.Level width height) (events : List DisplayEvent) : (v.nextAll events).Level width height := by
  induction events generalizing v with
  | nil => exact l
  | cons e rest ih => exact ih (l.next e)

/-- What is drawn has the length of the view; only a spectrum that is not shown is empty. -/
theorem size_frame (l : v.Level width height) :
    v.frame.window.i.size = v.fftLength.points ∧ v.frame.window.q.size = v.fftLength.points
      ∧ v.frame.spectrum.size = if v.frame.mode = .spectrum then v.fftLength.points else 0 := by
  refine ⟨l.i, l.q, ?_⟩
  show (if v.mode == .spectrum then v.spectrum else #[]).size = if v.mode = .spectrum then v.fftLength.points else 0
  by_cases spectral : v.mode = .spectrum
  · rw [if_pos (beq_iff_eq.2 spectral), if_pos spectral, l.spectrum]
  · rw [if_neg (mt beq_iff_eq.1 spectral), if_neg spectral]
    rfl

end Level

theorem level_ofConfig {c : StreamConfig} (wide : 1 ≤ c.waterfall.width) (high : 1 ≤ c.waterfall.height)
    (lt : c.waterfall.width * c.waterfall.height < 2 ^ 64) (planner : Planner) (stream : Stream) :
    (ofConfig planner c stream).Level c.waterfall.width c.waterfall.height where
  toFits := fits_ofConfig planner c stream
  spectrum := Array.size_replicate
  waterfall := Waterfall.spans_blank wide high lt

end StreamView

/-! ## Views of valid configurations -/

namespace FftLength

/-- Every length is on the menu. -/
theorem mem_menu (n : FftLength) : n ∈ menu := by
  have seven := n.seven_le
  have twenty := n.le_twenty
  refine List.mem_filterMap.2 ⟨n.log - 7, List.mem_range.2 (by omega), ?_⟩
  rw [dif_pos (by omega)]
  refine congrArg some ?_
  cases n
  simp only [mk.injEq]
  omega

end FftLength

namespace ScopeConfig

theorem exists_validate_of_validateStreams {earlier : List String} {streams : List StreamConfig}
    (h : validateStreams earlier streams = .ok ()) : ∀ s ∈ streams, ∃ before, s.validate before = .ok () := by
  induction streams generalizing earlier with
  | nil => exact List.forall_mem_nil _
  | cons s rest ih =>
    rw [validateStreams] at h
    cases first : s.validate earlier with
    | error e =>
      rw [first] at h
      cases h
    | ok done =>
      rw [first] at h
      intro t mem
      rcases List.mem_cons.1 mem with rfl | mem
      · exact ⟨earlier, first⟩
      · exact ih h t mem

/-- In a valid configuration nothing is wrong with any stream. -/
theorem exists_validate_of_validate {c : ScopeConfig} (h : c.validate = .ok ()) :
    ∀ s ∈ c.streams, ∃ before, s.validate before = .ok () := by
  unfold validate at h
  split at h
  · cases h
  · split at h
    · cases h
    · exact exists_validate_of_validateStreams h

end ScopeConfig

/-- A stream with nothing wrong has a waterfall of some width and height. -/
theorem StreamConfig.waterfall_of_validate {s : StreamConfig} {before : List String} (h : s.validate before = .ok ()) :
    1 ≤ s.waterfall.width ∧ 1 ≤ s.waterfall.height := by
  by_cases flat : s.waterfall.width = 0 ∨ s.waterfall.height = 0
  · simp only [validate, if_pos flat] at h
    split at h
    · cases h
    · split at h
      · cases h
      · split at h
        · cases h
        · split at h <;> cases h
  · omega

/-- **The lengths of a view agree.** Whatever comes to the view of a stream of a valid configuration whose grid can be
counted by a word, and wherever its plans come from: its window and its spectrum have its length, which is on the menu,
and its waterfall has all cells of its grid. So an update reaches beyond no array, replaces nothing by something of
another length and finds no fault, every slot of the waterfall is there, a window is taken whenever one is queued, and
what is drawn has the length of the view. -/
theorem lengths_agree (c : ScopeConfig) (valid : c.validate = .ok ()) (t : StreamConfig) (inside : t ∈ c.streams)
    (counted : t.waterfall.width * t.waterfall.height < 2 ^ 64) (planner : Planner) (stream : Stream)
    (events : List DisplayEvent) :
    let v := (StreamView.ofConfig planner t stream).nextAll events
    v.fftLength ∈ FftLength.menu
      ∧ (v.window.i.size = v.fftLength.points ∧ v.window.q.size = v.fftLength.points
        ∧ v.spectrum.size = v.fftLength.points)
      ∧ (v.waterfall.cells.size = t.waterfall.width * t.waterfall.height ∧ v.waterfall.cursor < t.waterfall.height)
      ∧ (v.update.1 = .ok () ∧ v.strictUpdate? = some v.update)
      ∧ (∀ slot, v.waterfall.strictSlot? slot = some (v.waterfall.slot slot))
      ∧ (v.update.2.fresh = true ↔ v.stream.control.enabled = true ∧ v.fftLength.points ≤ v.stream.queue.size)
      ∧ v.frame.window.i.size = v.fftLength.points ∧ v.frame.window.q.size = v.fftLength.points
      ∧ v.frame.spectrum.size = if v.frame.mode = .spectrum then v.fftLength.points else 0 := by
  intro v
  obtain ⟨before, right⟩ := ScopeConfig.exists_validate_of_validate valid t inside
  obtain ⟨wide, high⟩ := StreamConfig.waterfall_of_validate right
  have l : v.Level t.waterfall.width t.waterfall.height :=
    (StreamView.level_ofConfig wide high counted planner stream).nextAll events
  have cursor := v.waterfall.cursor_lt
  rw [l.waterfall.height_eq] at cursor
  obtain ⟨strict, right, -⟩ := l.strictUpdate?_eq
  exact ⟨v.fftLength.mem_menu, ⟨l.i, l.q, l.spectrum⟩, ⟨l.waterfall.size, cursor⟩, ⟨right, strict⟩,
    l.waterfall.strictSlot?_eq, l.toFits.fresh_update_iff, l.size_frame⟩

/-- A stream with full windows of 128 that is asked for windows of 256. -/
theorem lengths_agree_lengthened :
    let v := (StreamView.ofConfig .ofRoots .narrow (.ofName "raw" true 128)).nextAll
      [.write (.push (.zeros 128)), .command (.setMode .spectrum), .command (.setFftLength ⟨8, by decide, by decide⟩)]
    ScopeConfig.narrow.validate = .ok () ∧ StreamConfig.narrow ∈ ScopeConfig.narrow.streams ∧ 1024 * 256 < 2 ^ 64
      ∧ v.window.i.size = 256 ∧ v.spectrum.size = 256 ∧ v.update.1 = .ok () := by
  intro v
  have mem : StreamConfig.narrow ∈ ScopeConfig.narrow.streams := List.mem_singleton_self _
  obtain ⟨-, ⟨i, -, spectrum⟩, -, ⟨right, -⟩, -⟩ :=
    lengths_agree .narrow rfl .narrow mem (by decide) .ofRoots (.ofName "raw" true 128)
      [.write (.push (.zeros 128)), .command (.setMode .spectrum), .command (.setFftLength ⟨8, by decide, by decide⟩)]
  exact ⟨rfl, mem, by decide, i, spectrum, right⟩

end Panadapter
