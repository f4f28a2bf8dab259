import Mathlib.Algebra.Ring.Nat
import Mathlib.Data.List.Basic
import Panadapter.Waterfall.Basic

/-!
# The rows of a waterfall

A waterfall stands for the rows appended since it was last cleared, newest first (`Waterfall.recent`). The invariant of
all changes is `Waterfall.Keeps`: the row of an age stands as many slots before the cursor, counted around.

* A waterfall shows exactly the rows appended last, and never reaches beyond its array, if its grid has no more cells
  than memory can hold; a grid whose count of cells wraps has slots beyond its array (`recalls_iff`).
-/

namespace Panadapter

namespace Waterfall

/-- The most cells that memory can hold: an array has less than 2 ^ 63 bytes, and a cell has four. -/
def mostCells : Nat := (2 ^ 63 - 1) / 4

theorem mostCells_lt : mostCells < 2 ^ 62 := by decide

/-- What is done to a waterfall. -/
inductive Change where
  | append (row : Array Float32)
  | clear

/-- The waterfall after a change. -/
def next (w : Waterfall) : Change → Waterfall
  | .append row => w.append row
  | .clear => w.clear

/-- The waterfall after changes in order. -/
def nextAll (w : Waterfall) (changes : List Change) : Waterfall := changes.foldl next w

/-- The rows after a change, newest first. -/
def Change.rows (rows : List (Array Float32)) : Change → List (Array Float32)
  | append row => row :: rows
  | clear => []

/-- The rows appended since the last clearing, newest first. -/
def recent (changes : List Change) : List (Array Float32) := changes.foldl Change.rows []

/-- A row cut to a width, or filled up to it with zeros. -/
def fit (width : Nat) (row : Array Float32) : Array Float32 :=
  row.extract 0 width ++ Array.replicate (width - row.size) 0

/-- The row of an age among rows, newest first; zeros where there is none. -/
def rowOfAge (width : Nat) (rows : List (Array Float32)) (age : Nat) : Array Float32 :=
  match rows[age]? with
  | some row => fit width row
  | none => Array.replicate width 0

/-- The waterfall after rows appended in order. -/
def appendAll (w : Waterfall) (rows : List (Array Float32)) : Waterfall := rows.foldl append w

/-- A waterfall that shows rows, newest first, and whose slots lie within its array. An append changes the next slot
only, and `height` of them write each slot once. -/
structure Recalls (w : Waterfall) (width height : Nat) (appended : List (Array Float32)) : Prop where
  inBounds : ∀ slot < height, w.slotStart slot + width ≤ w.cells.size
  rowByAge : ∀ age, w.rowByAge? age = if age < height then some (rowOfAge width appended age) else none
  rows : w.rows = (List.range height).map (rowOfAge width appended)
  filled : w.filled = min appended.length height
  cursor : w.cursor = (appended.length + height - 1) % height
  written : ∀ row, (w.append row).slot w.nextSlot = fit width row
  others : ∀ row, ∀ slot < height, slot ≠ w.nextSlot → (w.append row).slot slot = w.slot slot
  cycle : ∀ more : List (Array Float32), more.length = height →
    ∀ slot < height, ∃! k, k < height ∧ (w.appendAll (more.take k)).nextSlot = slot

/-! ## Rows as arrays -/

theorem getElem?_fit {width : Nat} {row : Array Float32} {k : Nat} (h : k < width) :
    (fit width row)[k]? = some (row.getD k 0) := by
  unfold fit
  by_cases inside : k < row.size
  · rw [Array.getElem?_append_left (by simp; omega), Array.getElem?_extract_of_lt (by simp; omega)]
    simp [inside]
  · rw [Array.getElem?_append_right (by simp; omega), Array.getElem?_replicate]
    simp [inside]
    omega

@[simp] theorem size_fit (width : Nat) (row : Array Float32) : (fit width row).size = width := by
  simp [fit]
  omega

theorem getElem?_writeCells (cells : Array Float32) (start : Nat) (row : Array Float32) (count i : Nat) :
    (writeCells cells start row count)[i]? =
      if start ≤ i ∧ i < start + count ∧ i < cells.size then some (row.getD (i - start) 0) else cells[i]? := by
  induction count with
  | zero => simp [writeCells]; omega
  | succ n ih =>
    have step : writeCells cells start row (n + 1)
        = (writeCells cells start row n).setIfInBounds (start + n) (row.getD n 0) := by
      simp [writeCells]
    rw [step, Array.getElem?_setIfInBounds, size_writeCells, ih]
    by_cases last : start + n = i
    · subst last
      by_cases inside : start + n < cells.size
      · simp [inside]
      · simp [inside]
    · rw [if_neg last]
      congr 1
      simp only [eq_iff_iff]
      omega

/-! ## Slots of a whole grid -/

/-- A waterfall whose array is all of its grid. -/
structure Whole (w : Waterfall) : Prop where
  width_pos : 0 < w.width
  size : w.cells.size = w.width * w.height
  le : w.width * w.height ≤ mostCells

theorem whole_blank {width height : Nat} (wide : 1 ≤ width) (high : 1 ≤ height) (le : width * height ≤ mostCells) :
    (blank width height).Whole := by
  have small := mostCells_lt
  have width_eq : max width 1 = width := by omega
  have height_eq : max height 1 = height := by omega
  refine ⟨?_, ?_, ?_⟩
  · show 0 < max width 1
    omega
  · simp only [blank, Array.size_replicate, cellCount, width_eq, height_eq]
    exact Nat.mod_eq_of_lt (by omega)
  · simpa only [blank, width_eq, height_eq] using le

namespace Whole

variable {w : Waterfall}

theorem height_lt (h : w.Whole) : w.height < 2 ^ 62 :=
  Nat.lt_of_le_of_lt (Nat.le_trans (Nat.le_mul_of_pos_left _ h.width_pos) h.le) mostCells_lt

/-- The end of a slot. -/
theorem slot_end_le (h : w.Whole) {slot : Nat} (lt : slot < w.height) : slot * w.width + w.width ≤ w.cells.size := by
  rw [h.size, ← Nat.succ_mul, Nat.mul_comm w.width]
  exact Nat.mul_le_mul_right _ lt

/-- No offset of a slot wraps. -/
theorem slotStart_eq (h : w.Whole) {slot : Nat} (lt : slot < w.height) : w.slotStart slot = slot * w.width := by
  have := h.slot_end_le lt
  have := h.size
  have := h.le
  have := mostCells_lt
  exact Nat.mod_eq_of_lt (by omega)

theorem append (h : w.Whole) (row : Array Float32) : (w.append row).Whole :=
  ⟨h.width_pos, (w.size_cells_append row).trans h.size, h.le⟩

theorem clear (h : w.Whole) : w.clear.Whole := ⟨h.width_pos, Array.size_map.trans h.size, h.le⟩

/-- A slot holds its part of the array. -/
theorem getElem?_slot (h : w.Whole) {slot k : Nat} (lt : slot < w.height) (inside : k < w.width) :
    (w.slot slot)[k]? = w.cells[slot * w.width + k]? := by
  have within := h.slot_end_le lt
  simp only [Waterfall.slot, Nat.mod_eq_of_lt lt, h.slotStart_eq lt]
  rw [Array.getElem?_extract_of_lt (by omega), Array.getElem?_eq_getElem]

theorem size_slot (h : w.Whole) {slot : Nat} (lt : slot < w.height) : (w.slot slot).size = w.width := by
  have within := h.slot_end_le lt
  simp only [Waterfall.slot, Nat.mod_eq_of_lt lt, h.slotStart_eq lt, Array.size_extract]
  omega

end Whole

/-! ## The slots around the cursor -/

theorem nextSlot_eq (w : Waterfall) : w.nextSlot = if w.cursor + 1 = w.height then 0 else w.cursor + 1 := by
  have := w.cursor_lt
  unfold nextSlot
  split
  · rename_i last
    rw [last, Nat.mod_self]
  · exact Nat.mod_eq_of_lt (by omega)

theorem nextSlot_lt (w : Waterfall) : w.nextSlot < w.height := Nat.mod_lt _ (by have := w.cursor_lt; omega)

/-- The slot of an age stands before the cursor, or else at the end. -/
theorem Whole.slotOfAge_eq {w : Waterfall} (h : w.Whole) {age : Nat} (lt : age < w.height) :
    w.slotOfAge age = if age ≤ w.cursor then w.cursor - age else w.cursor + w.height - age := by
  have := w.cursor_lt
  have := h.height_lt
  have around : w.cursor + w.height + (0x10000000000000000 - age)
      = w.cursor + w.height - age + 0x10000000000000000 := by omega
  have word : (w.cursor + w.height - age + 0x10000000000000000) % 0x10000000000000000
      = w.cursor + w.height - age := by
    rw [Nat.add_mod_right]
    exact Nat.mod_eq_of_lt (by omega)
  unfold slotOfAge
  rw [around, word]
  split
  · rw [show w.cursor + w.height - age = w.cursor - age + w.height by omega, Nat.add_mod_right]
    exact Nat.mod_eq_of_lt (by omega)
  · exact Nat.mod_eq_of_lt (by omega)

/-- An append puts the row into the next slot and leaves all others. -/
theorem Whole.slot_append {w : Waterfall} (h : w.Whole) (row : Array Float32) {slot : Nat} (lt : slot < w.height) :
    (w.append row).slot slot = if slot = w.nextSlot then fit w.width row else w.slot slot := by
  have next_lt := w.nextSlot_lt
  have within := h.slot_end_le lt
  have size : ((w.append row).slot slot).size = w.width := (h.append row).size_slot lt
  have cell : ∀ k < w.width, ((w.append row).slot slot)[k]?
      = (writeCells w.cells (w.nextSlot * w.width) row w.width)[slot * w.width + k]? := by
    intro k inside
    rw [(h.append row).getElem?_slot lt inside, ← h.slotStart_eq next_lt]
    rfl
  refine Array.ext_getElem? fun k => ?_
  by_cases inside : k < w.width
  · rw [cell k inside, getElem?_writeCells]
    by_cases same : slot = w.nextSlot
    · rw [if_pos same, getElem?_fit inside, if_pos (by rw [← same]; omega), ← same, Nat.add_sub_cancel_left]
    · rw [if_neg same, h.getElem?_slot lt inside]
      -- The slots are apart, so that no place of one lies in the other.
      refine if_neg fun between => ?_
      rcases Nat.lt_or_gt_of_ne same with before | behind
      · have := Nat.mul_le_mul_right w.width before
        rw [Nat.succ_mul] at this
        omega
      · have := Nat.mul_le_mul_right w.width behind
        rw [Nat.succ_mul] at this
        omega
  · rw [Array.getElem?_eq_none (by omega)]
    split
    · rw [Array.getElem?_eq_none (by rw [size_fit]; omega)]
    · rw [Array.getElem?_eq_none (by rw [h.size_slot lt]; omega)]

/-- Where all cells are zero, so is every slot. -/
theorem Whole.slot_of_zeros {w : Waterfall} (h : w.Whole) {n : Nat} (zeros : w.cells = Array.replicate n 0)
    {slot : Nat} (lt : slot < w.height) : w.slot slot = Array.replicate w.width 0 := by
  have within := h.slot_end_le lt
  simp only [zeros, Array.size_replicate] at within
  simp only [Waterfall.slot, Nat.mod_eq_of_lt lt, h.slotStart_eq lt, zeros, Array.extract_replicate]
  congr 1
  omega

/-! ## The invariant -/

/-- A waterfall in whose slots rows stand by their age, counted from the cursor. -/
structure Keeps (w : Waterfall) (rows : List (Array Float32)) : Prop extends w.Whole where
  appended : w.appended = rows.length
  cursor : w.cursor = (rows.length + w.height - 1) % w.height
  slot_of_age : ∀ age < w.height, w.slot (w.slotOfAge age) = rowOfAge w.width rows age

theorem slotOfAge_lt (w : Waterfall) (age : Nat) : w.slotOfAge age < w.height :=
  Nat.mod_lt _ (by have := w.cursor_lt; omega)

theorem Whole.keeps_of_zeros {w : Waterfall} (h : w.Whole) {n : Nat} (zeros : w.cells = Array.replicate n 0)
    (appended : w.appended = 0) (cursor : w.cursor = w.height - 1) : w.Keeps [] where
  toWhole := h
  appended := appended
  cursor := by
    have := w.cursor_lt
    rw [cursor, List.length_nil, Nat.zero_add, Nat.mod_eq_of_lt (by omega)]
  slot_of_age := fun age _ => h.slot_of_zeros zeros (w.slotOfAge_lt age)

theorem keeps_blank {width height : Nat} (wide : 1 ≤ width) (high : 1 ≤ height) (le : width * height ≤ mostCells) :
    (blank width height).Keeps [] :=
  (whole_blank wide high le).keeps_of_zeros rfl rfl rfl

namespace Keeps

variable {w : Waterfall} {rows : List (Array Float32)}

theorem clear (h : w.Keeps rows) : w.clear.Keeps [] := by
  have zeros : w.clear.cells = Array.replicate w.cells.size 0 :=
    Array.ext (by simp [Waterfall.clear]) (by simp [Waterfall.clear])
  exact h.toWhole.clear.keeps_of_zeros zeros rfl rfl

/-- The new row stands at the cursor, and all others are older by one. -/
theorem append (h : w.Keeps rows) (row : Array Float32) : (w.append row).Keeps (row :: rows) where
  toWhole := h.toWhole.append row
  appended := congrArg (· + 1) h.appended
  cursor := by
    have := w.cursor_lt
    show (w.cursor + 1) % w.height = (rows.length + 1 + w.height - 1) % w.height
    rw [h.cursor, Nat.mod_add_mod]
    congr 1
    omega
  slot_of_age := by
    intro age lt
    have cursor_lt := w.cursor_lt
    have next := w.nextSlot_eq
    have slot_eq : (w.append row).slotOfAge age
        = if age ≤ w.nextSlot then w.nextSlot - age else w.nextSlot + w.height - age :=
      (h.toWhole.append row).slotOfAge_eq lt
    have slot_lt := (w.append row).slotOfAge_lt age
    show _ = rowOfAge w.width (row :: rows) age
    rw [h.toWhole.slot_append row slot_lt]
    cases age with
    | zero =>
      rw [if_pos (by rw [slot_eq]; simp)]
      rfl
    | succ older =>
      have lt : older + 1 < w.height := lt
      have older_lt : older < w.height := by omega
      have before := h.toWhole.slotOfAge_eq older_lt
      have same : (w.append row).slotOfAge (older + 1) = w.slotOfAge older := by
        rw [slot_eq, before, next]
        split <;> split <;> split <;> omega
      rw [if_neg, same, h.slot_of_age older older_lt]
      · rfl
      · rw [slot_eq, next]
        split <;> split <;> omega

theorem next (h : w.Keeps rows) (c : Change) : (w.next c).Keeps (c.rows rows) := by
  cases c with
  | append row => exact h.append row
  | clear => exact h.clear

/-- Every run keeps the invariant. -/
theorem nextAll (h : w.Keeps rows) (changes : List Change) :
    (w.nextAll changes).Keeps (changes.foldl Change.rows rows) := by
  induction changes generalizing w rows with
  | nil => exact h
  | cons c rest ih => exact ih (h.next c)

end Keeps

/-! ## What is shown -/

@[simp] theorem size_nextAll (w : Waterfall) (changes : List Change) :
    (w.nextAll changes).width = w.width ∧ (w.nextAll changes).height = w.height := by
  induction changes generalizing w with
  | nil => exact ⟨rfl, rfl⟩
  | cons c rest ih =>
    obtain ⟨width, height⟩ := ih (w.next c)
    cases c <;> exact ⟨width, height⟩

/-- Appends go around the slots one after the other. -/
theorem nextSlot_appendAll (w : Waterfall) (rows : List (Array Float32)) :
    (w.appendAll rows).nextSlot = (w.cursor + 1 + rows.length) % w.height := by
  induction rows generalizing w with
  | nil => rfl
  | cons row rest ih =>
    refine (ih (w.append row)).trans ?_
    show ((w.cursor + 1) % w.height + 1 + rest.length) % w.height = _
    rw [Nat.add_assoc, Nat.mod_add_mod, List.length_cons]
    congr 1
    omega

/-- Of `height` appends just one writes a slot. -/
theorem existsUnique_nextSlot_appendAll (w : Waterfall) {rows : List (Array Float32)} (round : rows.length = w.height)
    {slot : Nat} (lt : slot < w.height) : ∃! k, k < w.height ∧ (w.appendAll (rows.take k)).nextSlot = slot := by
  have cursor_lt := w.cursor_lt
  have written : ∀ k < w.height, (w.appendAll (rows.take k)).nextSlot
      = if w.cursor + 1 + k < w.height then w.cursor + 1 + k else w.cursor + 1 + k - w.height := by
    intro k inside
    rw [nextSlot_appendAll, List.length_take, round, Nat.min_eq_left (Nat.le_of_lt inside)]
    split
    · exact Nat.mod_eq_of_lt ‹_›
    · rw [Nat.mod_eq_sub_mod (by omega), Nat.mod_eq_of_lt (by omega)]
  by_cases ahead : w.cursor < slot
  · refine ⟨slot - (w.cursor + 1), ⟨by omega, ?_⟩, ?_⟩
    · rw [written _ (by omega), if_pos (by omega)]
      omega
    · rintro k ⟨inside, same⟩
      rw [written k inside] at same
      split at same <;> omega
  · refine ⟨slot + w.height - (w.cursor + 1), ⟨by omega, ?_⟩, ?_⟩
    · rw [written _ (by omega), if_neg (by omega)]
      omega
    · rintro k ⟨inside, same⟩
      rw [written k inside] at same
      split at same <;> omega

namespace Keeps

variable {w : Waterfall} {rows : List (Array Float32)}

theorem rowByAge?_eq (h : w.Keeps rows) (age : Nat) :
    w.rowByAge? age = if age < w.height then some (rowOfAge w.width rows age) else none := by
  unfold rowByAge?
  split
  · rw [h.slot_of_age age ‹_›]
  · rfl

theorem rows_eq (h : w.Keeps rows) : w.rows = (List.range w.height).map (rowOfAge w.width rows) := by
  have each : ∀ age ∈ List.range w.height, w.rowByAge? age = some (rowOfAge w.width rows age) := by
    intro age mem
    rw [h.rowByAge?_eq, if_pos (List.mem_range.1 mem)]
  rw [Waterfall.rows, List.filterMap_congr each, ← List.filterMap_eq_map]
  rfl

theorem recalls (h : w.Keeps rows) : w.Recalls w.width w.height rows where
  inBounds := by
    intro slot lt
    rw [h.toWhole.slotStart_eq lt]
    exact h.toWhole.slot_end_le lt
  rowByAge := h.rowByAge?_eq
  rows := h.rows_eq
  filled := congrArg (min · w.height) h.appended
  cursor := h.cursor
  written := by
    intro row
    rw [h.toWhole.slot_append row w.nextSlot_lt, if_pos rfl]
  others := by
    intro row slot lt other
    rw [h.toWhole.slot_append row lt, if_neg other]
  cycle := fun _ round _ lt => w.existsUnique_nextSlot_appendAll round lt

end Keeps

/-- Where the count of cells has wrapped, the slot that begins in the last row of the array ends beyond it. -/
theorem slot_beyond {width height : Nat} (wide : 1 ≤ width) (wraps : 2 ^ 64 ≤ width * height) :
    cellCount width height / width < height
      ∧ cellCount width height < cellCount (cellCount width height / width) width + width := by
  have count_lt : cellCount width height < 2 ^ 64 := Nat.mod_lt _ (by decide)
  have le : cellCount width height / width * width ≤ cellCount width height := Nat.div_mul_le_self _ _
  have start : cellCount (cellCount width height / width) width = cellCount width height / width * width :=
    Nat.mod_eq_of_lt (by omega)
  refine ⟨Nat.div_lt_of_lt_mul (by omega), ?_⟩
  rw [start]
  exact Nat.lt_div_mul_add wide

theorem exists_slot_beyond {width height : Nat} (wide : 1 ≤ width) (wraps : 2 ^ 64 ≤ width * height) :
    ∃ slot < height, cellCount width height < cellCount slot width + width :=
  ⟨_, slot_beyond wide wraps⟩

/-- **The rows of a waterfall.** A waterfall can be made and then always shows the rows appended last exactly if memory
can hold its grid. -/
theorem recalls_iff {width height : Nat} (wide : 1 ≤ width) (high : 1 ≤ height) :
    (cellCount width height ≤ mostCells
      ∧ ∀ changes, ((blank width height).nextAll changes).Recalls width height (recent changes))
      ↔ width * height ≤ mostCells := by
  have width_eq : (blank width height).width = width := Nat.max_eq_left wide
  have height_eq : (blank width height).height = height := Nat.max_eq_left high
  constructor
  · rintro ⟨made, recalls⟩
    by_cases wraps : 2 ^ 64 ≤ width * height
    · obtain ⟨slot, lt, beyond⟩ := exists_slot_beyond wide wraps
      have within : cellCount slot (blank width height).width + width ≤ (blank width height).cells.size :=
        (recalls []).inBounds slot lt
      have size : (blank width height).cells.size = cellCount width height := by
        simp only [blank, Array.size_replicate, Nat.max_eq_left wide, Nat.max_eq_left high]
      rw [width_eq, size] at within
      omega
    · rwa [cellCount, Nat.mod_eq_of_lt (by omega)] at made
  · intro le
    have small := mostCells_lt
    refine ⟨?_, fun changes => ?_⟩
    · rw [cellCount, Nat.mod_eq_of_lt (by omega)]
      exact le
    · have recalls := ((keeps_blank wide high le).nextAll changes).recalls
      rwa [(size_nextAll _ changes).1, (size_nextAll _ changes).2, width_eq, height_eq] at recalls

/-- Rows that are too long and too short, and a clearing between them. -/
theorem recalls_two_by_three :
    ((blank 2 3).nextAll [.append #[1, 2, 3], .append #[4], .clear, .append #[5]]).Recalls 2 3 [#[5]] :=
  ((recalls_iff (by decide) (by decide)).2 (by decide)).2 _

/-- The last of so many rows begins where the first one does. -/
theorem rowByAge?_wrapped : ((blank 2 (2 ^ 63 + 1)).append #[5, 6]).rowByAge? 1 = some #[5, 6] := by
  decide +kernel

/-- So there are sizes that can be made and at which a waterfall shows a row that was never appended. -/
theorem not_forall_recalls : ¬∀ width height, 1 ≤ width → 1 ≤ height → cellCount width height ≤ mostCells →
    ∀ changes, ((blank width height).nextAll changes).Recalls width height (recent changes) := by
  intro all
  have recalls := all 2 (2 ^ 63 + 1) (by decide) (by decide) (by decide +kernel) [.append #[5, 6]]
  have shown := recalls.rowByAge 1
  rw [if_pos (by decide)] at shown
  exact absurd (rowByAge?_wrapped.symm.trans shown) (by decide +kernel)

end Waterfall

end Panadapter
