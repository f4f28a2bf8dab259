import Panadapter.Proofs.Scope.Feeding
import Panadapter.Proofs.Scope.Pictures
import Panadapter.Proofs.Scope.Validity

/-!
# Grids

A configuration sets the width and the height of each waterfall, and its validation asks for no more than that neither
is zero. The cells are counted by a word, and so are the places where slots begin.

* All that happens to the waterfall of a view is appends and clearings (`StreamView.Fits.waterfall_nextAll`).
* If a word can count the grid, its cells are all there, and appends and slots stay within them
  (`Waterfall.Spans.contains`).
* If not, some slot lies beyond the cells, and after so many appends the next one does
  (`Waterfall.Escapes.strictAppend?_eq_none`).
* Hence the grid of a valid configuration is whole exactly if a word can count it (`grids_whole_iff`).
-/

namespace Panadapter

/-! ## Grids that are whole, and grids that are not -/

namespace Waterfall

variable {w : Waterfall} {width height : Nat}

@[simp] theorem size_cells_nextAll (w : Waterfall) (changes : List Change) :
    (w.nextAll changes).cells.size = w.cells.size := by
  induction changes generalizing w with
  | nil => rfl
  | cons c rest ih =>
    refine (ih (w.next c)).trans ?_
    cases c with
    | append row => exact w.size_cells_append row
    | clear => exact Array.size_map

/-- Appends are changes. -/
theorem appendAll_eq (w : Waterfall) (rows : List (Array Float32)) :
    w.appendAll rows = w.nextAll (rows.map .append) := by
  rw [nextAll, List.foldl_map]
  rfl

/-- A waterfall that has all cells of its grid, and whose appends and slots stay within them. -/
structure Contains (w : Waterfall) (width height : Nat) : Prop where
  size : w.cells.size = width * height
  append : ∀ row, w.strictAppend? row = some (w.append row)
  slot : ∀ index, w.strictSlot? index = some (w.slot index)

theorem Spans.nextAll (s : w.Spans width height) (changes : List Change) :
    (w.nextAll changes).Spans width height := by
  obtain ⟨same_width, same_height⟩ := size_nextAll w changes
  exact ⟨same_width.trans s.width_eq, same_height.trans s.height_eq, (size_cells_nextAll w changes).trans s.size, s.lt⟩

theorem Spans.contains (s : w.Spans width height) : w.Contains width height :=
  ⟨s.size, s.strictAppend?_eq, s.strictSlot?_eq⟩

/-- A waterfall with a slot that lies beyond its cells. -/
def Escapes (w : Waterfall) : Prop := ∃ slot < w.height, w.cells.size < w.slotStart slot + w.width

theorem escapes_blank (wide : 1 ≤ width) (high : 1 ≤ height) (wraps : 2 ^ 64 ≤ width * height) :
    (blank width height).Escapes := by
  have width_eq : (blank width height).width = width := Nat.max_eq_left wide
  have height_eq : (blank width height).height = height := Nat.max_eq_left high
  have size : (blank width height).cells.size = cellCount width height := by
    simp only [blank, Array.size_replicate, Nat.max_eq_left wide, Nat.max_eq_left high]
  obtain ⟨slot, lt, beyond⟩ := exists_slot_beyond wide wraps
  exact ⟨slot, by rwa [height_eq], by rwa [size, slotStart, width_eq]⟩

namespace Escapes

theorem nextAll (e : w.Escapes) (changes : List Change) : (w.nextAll changes).Escapes := by
  obtain ⟨slot, lt, beyond⟩ := e
  obtain ⟨same_width, same_height⟩ := size_nextAll w changes
  refine ⟨slot, by rwa [same_height], ?_⟩
  rwa [size_cells_nextAll, slotStart, same_width]

theorem strictSlot?_eq_none (e : w.Escapes) : ∃ slot < w.height, w.strictSlot? slot = none := by
  obtain ⟨slot, lt, beyond⟩ := e
  refine ⟨slot, lt, ?_⟩
  rw [strictSlot?, Nat.mod_eq_of_lt lt, part?, if_neg fun both => by omega]

/-- So many appends lead up to the slot, whatever the rows are. -/
theorem strictAppend?_eq_none (e : w.Escapes) : ∃ count < w.height, ∀ (rows : List (Array Float32))
    (row : Array Float32), rows.length = count → (w.appendAll rows).strictAppend? row = none := by
  obtain ⟨slot, lt, beyond⟩ := e
  obtain ⟨count, ⟨inside, leads⟩, -⟩ :=
    w.existsUnique_nextSlot_appendAll (List.length_replicate (n := w.height) (a := #[])) lt
  refine ⟨count, inside, fun rows row length => ?_⟩
  have next : (w.appendAll rows).nextSlot = slot := by
    rw [nextSlot_appendAll, List.length_take, List.length_replicate, Nat.min_eq_left (Nat.le_of_lt inside)] at leads
    rw [nextSlot_appendAll, length, leads]
  obtain ⟨same_width, -⟩ := size_nextAll w (rows.map .append)
  have size : (w.appendAll rows).cells.size = w.cells.size := by rw [appendAll_eq, size_cells_nextAll]
  have width_eq : (w.appendAll rows).width = w.width := by rw [appendAll_eq, same_width]
  have outside : part? (w.appendAll rows).cells ((w.appendAll rows).slotStart (w.appendAll rows).nextSlot)
      ((w.appendAll rows).slotStart (w.appendAll rows).nextSlot + (w.appendAll rows).width) = none := by
    refine if_neg fun both => ?_
    rw [next, size, slotStart, width_eq] at both
    exact absurd beyond (Nat.not_lt.2 both.2)
  rw [strictAppend?, outside]
  rfl

end Escapes

end Waterfall

/-! ## The waterfall of a view -/

namespace StreamView

variable {v : StreamView}

/-- What comes to a view changes its waterfall once or not at all. -/
theorem Fits.waterfall_next (f : v.Fits) (e : DisplayEvent) :
    ∃ changes, (v.next e).waterfall = v.waterfall.nextAll changes := by
  cases e with
  | write w => exact ⟨[], rfl⟩
  | command c =>
    by_cases clears : c = .clearWaterfall
    · rw [clears]
      exact ⟨[.clear], rfl⟩
    · exact ⟨[], v.waterfall_apply clears⟩
  | update =>
    rcases f.waterfall_next_update with same | ⟨row, added⟩
    · exact ⟨[], same⟩
    · exact ⟨[.append row], added⟩

/-- All that happens to it is appends and clearings. -/
theorem Fits.waterfall_nextAll (f : v.Fits) (events : List DisplayEvent) :
    ∃ changes, (v.nextAll events).waterfall = v.waterfall.nextAll changes := by
  induction events generalizing v with
  | nil => exact ⟨[], rfl⟩
  | cons e rest ih =>
    obtain ⟨first, changed⟩ := f.waterfall_next e
    obtain ⟨later, ends⟩ := ih (f.next e)
    refine ⟨first ++ later, ends.trans ?_⟩
    rw [changed]
    exact List.foldl_append.symm

end StreamView

/-- The waterfall of the view of a configured stream, after all that has come to it. -/
def StreamConfig.waterfallAfter (s : StreamConfig) (planner : Planner) (stream : Stream) (events : List DisplayEvent) :
    Waterfall :=
  ((StreamView.ofConfig planner s stream).nextAll events).waterfall

theorem StreamConfig.exists_waterfallAfter_eq (s : StreamConfig) (planner : Planner) (stream : Stream)
    (events : List DisplayEvent) : ∃ changes, s.waterfallAfter planner stream events
      = (Waterfall.blank s.waterfall.width s.waterfall.height).nextAll changes :=
  (StreamView.fits_ofConfig planner s stream).waterfall_nextAll events

/-- A grid is whole if its cells are counted right, they are all there whatever comes to the view, and all appends and
slots stay within them. -/
def StreamConfig.WholeGrid (s : StreamConfig) : Prop :=
  Waterfall.cellCount s.waterfall.width s.waterfall.height = s.waterfall.width * s.waterfall.height
    ∧ ∀ planner stream events, (s.waterfallAfter planner stream events).Contains s.waterfall.width s.waterfall.height

theorem StreamConfig.Sound.wholeGrid_iff {s : StreamConfig} (sound : s.Sound) :
    s.WholeGrid ↔ s.waterfall.width * s.waterfall.height < 2 ^ 64 := by
  constructor
  · rintro ⟨counted, -⟩
    rw [← counted]
    exact Nat.mod_lt _ (by decide)
  · intro lt
    refine ⟨Nat.mod_eq_of_lt lt, fun planner stream events => ?_⟩
    obtain ⟨changes, same⟩ := s.exists_waterfallAfter_eq planner stream events
    have wide := Nat.one_le_iff_ne_zero.2 sound.width_ne_zero
    have high := Nat.one_le_iff_ne_zero.2 sound.height_ne_zero
    rw [same]
    exact ((Waterfall.spans_blank wide high lt).nextAll changes).contains

/-- **Grids.** The grid of each stream of a valid configuration is whole exactly if a word can count its cells; it can
be made, too, exactly if memory can hold them. Otherwise, whatever comes to the view, there is a slot beyond the cells,
and some number of appends after which the next one reaches beyond them. -/
theorem grids_whole_iff (c : ScopeConfig) (valid : c.validate = .ok ()) (s : StreamConfig) (inside : s ∈ c.streams) :
    let cells := s.waterfall.width * s.waterfall.height
    (s.WholeGrid ↔ cells < 2 ^ 64)
      ∧ (Waterfall.cellCount s.waterfall.width s.waterfall.height ≤ Waterfall.mostCells ∧ s.WholeGrid
        ↔ cells ≤ Waterfall.mostCells)
      ∧ (2 ^ 64 ≤ cells → ∀ planner stream events, let w := s.waterfallAfter planner stream events
        (∃ slot < w.height, w.strictSlot? slot = none)
          ∧ ∃ count < w.height, ∀ rows row, rows.length = count → (w.appendAll rows).strictAppend? row = none) := by
  intro cells
  have sound := (c.validate_eq_ok_iff.1 valid).streams_sound s inside
  have small := Waterfall.mostCells_lt
  refine ⟨sound.wholeGrid_iff, ?_, fun wraps planner stream events => ?_⟩
  · constructor
    · rintro ⟨made, counted, -⟩
      exact counted.symm.trans_le made
    · intro le
      have whole : s.WholeGrid := sound.wholeGrid_iff.2 (by omega)
      exact ⟨whole.1.symm ▸ le, whole⟩
  · obtain ⟨changes, same⟩ := s.exists_waterfallAfter_eq planner stream events
    have wide := Nat.one_le_iff_ne_zero.2 sound.width_ne_zero
    have high := Nat.one_le_iff_ne_zero.2 sound.height_ne_zero
    have escapes : (s.waterfallAfter planner stream events).Escapes := by
      rw [same]
      exact (Waterfall.escapes_blank wide high wraps).nextAll changes
    exact ⟨escapes.strictSlot?_eq_none, escapes.strictAppend?_eq_none⟩

/-- The usual grid is whole. -/
theorem grids_whole_usual : ScopeConfig.usual.validate = .ok () ∧ ∃ s ∈ ScopeConfig.usual.streams,
    (s.waterfall.width, s.waterfall.height) = (1024, 256) ∧ s.WholeGrid := by
  have valid : ScopeConfig.usual.validate = .ok () := by decide +kernel
  obtain ⟨s, inside, sizes⟩ : ∃ s ∈ ScopeConfig.usual.streams,
      (s.waterfall.width, s.waterfall.height) = (1024, 256) := by decide +kernel
  obtain ⟨width, height⟩ := Prod.mk.inj sizes
  obtain ⟨whole_iff, -⟩ := grids_whole_iff .usual valid s inside
  refine ⟨valid, s, inside, sizes, whole_iff.2 ?_⟩
  rw [width, height]
  decide

/-- A stream with a waterfall of so many rows that only two of its cells are counted. -/
def StreamConfig.endless : StreamConfig :=
  { StreamConfig.narrow with waterfall := { StreamConfig.narrow.waterfall with width := 2, height := 2 ^ 63 + 1 } }

theorem StreamConfig.cellCount_endless :
    Waterfall.cellCount endless.waterfall.width endless.waterfall.height = 2 := by
  decide +kernel

/-- So there are valid configurations with a grid that is not whole. -/
theorem not_forall_wholeGrid :
    ¬∀ c : ScopeConfig, c.validate = .ok () → ∀ s ∈ c.streams, s.WholeGrid := by
  intro all
  have valid : { ScopeConfig.narrow with streams := [.endless] }.validate = .ok () := by decide +kernel
  obtain ⟨counted, -⟩ := all _ valid .endless (List.mem_singleton_self _)
  rw [StreamConfig.cellCount_endless] at counted
  exact absurd counted (by decide +kernel)

end Panadapter
