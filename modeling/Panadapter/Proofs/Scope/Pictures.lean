import Panadapter.Proofs.Scope.Lengths
import Panadapter.Proofs.Waterfall.Recent

/-!
# Pictures of the waterfall

A frame draws its waterfall line by line, each line in the colours of one row.

* Of lines of one length, each can be found again in the pixels (`lineAt_drawRows`).
* The rows on the lines are those of all ages, each on one line (`Orientation.existsUnique_ageAt`,
  `Waterfall.Keeps.screenRows_eq`), and none of them reaches beyond the cells if the grid fits the memory
  (`Waterfall.Keeps.strictScreenRows?_eq`). Otherwise one does (`Waterfall.exists_age_of_slot`).
* Hence the picture is that of the rows appended last exactly if memory can hold the grid (`draws_waterfall_iff`).
-/

namespace Panadapter

/-! ## Lines of pixels -/

/-- Line `y` of pixels that stand in lines of `width`. -/
def lineAt (pixels : Array Rgb) (width y : Nat) : Array Rgb := pixels.extract (y * width) (y * width + width)

/-- Of lists of one length, one after the other, each stands at its place. -/
theorem take_drop_flatMap {α β : Type} {g : α → List β} {width : Nat} {l : List α}
    (each : ∀ a ∈ l, (g a).length = width) {y : Nat} {a : α} (at_y : l[y]? = some a) :
    ((l.flatMap g).drop (y * width)).take width = g a := by
  induction l generalizing y with
  | nil => cases at_y
  | cons b rest ih =>
    obtain ⟨first, others⟩ := List.forall_mem_cons.1 each
    rw [List.flatMap_cons]
    cases y with
    | zero =>
      obtain rfl : b = a := Option.some.inj at_y
      rw [Nat.zero_mul, List.drop_zero, List.take_left' first]
    | succ y =>
      have past : (y + 1) * width = (g b).length + y * width := by rw [first, Nat.succ_mul, Nat.add_comm]
      rw [past, List.drop_length_add_append, ih others at_y]

namespace Frame

variable (f : Frame)

/-- The colours of a row. -/
def image (row : Array Float32) : Array Rgb := f.palette.colourRow f.waterfallMax row

theorem length_image (row : Array Float32) : (f.image row).toList.length = row.size := by
  simp [image, Palette.colourRow]

theorem drawRow_eq (drawn : Array Rgb × Array Rgb) (row : Array Float32) :
    f.drawRow drawn row = (drawn.1 ++ f.image row, f.image row) := by
  simp [drawRow, Palette.colourRowInto, image]

/-- The pixels are the images of the rows, whatever was there before. -/
theorem toList_drawRows (out : Array Rgb) (rows : List (Array Float32)) :
    (f.drawRows out rows).toList = rows.flatMap fun row => (f.image row).toList := by
  have run : ∀ drawn : Array Rgb × Array Rgb, (rows.foldl f.drawRow drawn).1.toList
      = drawn.1.toList ++ rows.flatMap fun row => (f.image row).toList := by
    induction rows with
    | nil => simp
    | cons row rest ih =>
      intro drawn
      rw [List.foldl_cons, ih, drawRow_eq]
      simp
  rw [drawRows, run]
  simp

variable {f} {width : Nat} {rows : List (Array Float32)}

/-- The line of a row is its image. -/
theorem lineAt_drawRows (each : ∀ row ∈ rows, row.size = width) (out : Array Rgb) {y : Nat} {row : Array Float32}
    (at_y : rows[y]? = some row) : lineAt (f.drawRows out rows) width y = f.image row := by
  have images : ∀ row ∈ rows, (f.image row).toList.length = width :=
    fun row member => (f.length_image row).trans (each row member)
  refine Array.toList_inj.1 ?_
  rw [lineAt, Array.toList_extract, List.extract_eq_take_drop, toList_drawRows, Nat.add_sub_cancel_left]
  exact take_drop_flatMap images at_y

theorem size_drawRows (each : ∀ row ∈ rows, row.size = width) (out : Array Rgb) :
    (f.drawRows out rows).size = width * rows.length := by
  have images : ∀ row ∈ rows, (f.image row).toList.length = width :=
    fun row member => (f.length_image row).trans (each row member)
  rw [← Array.length_toList, toList_drawRows, List.length_flatMap, List.map_congr_left images, List.map_const',
    List.sum_replicate_nat, Nat.mul_comm]

end Frame

/-! ## The rows on the lines -/

namespace Orientation

theorem ageAt_lt (o : Orientation) {height y : Nat} (lt : y < height) : o.ageAt height y < height := by
  cases o with
  | newestAtTop => exact lt
  | newestAtBottom => exact Nat.lt_of_le_of_lt (Nat.sub_le ..) (Nat.sub_one_lt_of_lt lt)

/-- The line of an age is found as the age of a line. -/
theorem ageAt_ageAt (o : Orientation) {height y : Nat} (lt : y < height) : o.ageAt height (o.ageAt height y) = y := by
  cases o with
  | newestAtTop => rfl
  | newestAtBottom =>
    show height - 1 - (height - 1 - y) = y
    omega

/-- Every row is on one line. -/
theorem existsUnique_ageAt (o : Orientation) {height age : Nat} (lt : age < height) :
    ∃! y, y < height ∧ o.ageAt height y = age := by
  refine ⟨o.ageAt height age, ⟨o.ageAt_lt lt, o.ageAt_ageAt lt⟩, ?_⟩
  rintro y ⟨inside, rfl⟩
  exact (o.ageAt_ageAt inside).symm

end Orientation

/-- A function that has a result for everything in a list gives the list of the results. -/
theorem mapM_eq_some {α β : Type} {f : α → Option β} {g : α → β} {l : List α} (each : ∀ a ∈ l, f a = some (g a)) :
    l.mapM f = some (l.map g) := by
  induction l with
  | nil => rfl
  | cons a rest ih =>
    obtain ⟨first, others⟩ := List.forall_mem_cons.1 each
    rw [List.mapM_cons, first, ih others]
    rfl

/-- It has to have them all. -/
theorem mapM_eq_none {α β : Type} {f : α → Option β} {l : List α} {a : α} (member : a ∈ l) (absent : f a = none) :
    l.mapM f = none := by
  induction l with
  | nil => cases member
  | cons b rest ih =>
    rw [List.mapM_cons]
    rcases List.mem_cons.1 member with rfl | later
    · rw [absent]
      rfl
    · rw [ih later]
      cases f b <;> rfl

namespace Waterfall

theorem size_rowOfAge (width : Nat) (rows : List (Array Float32)) (age : Nat) :
    (rowOfAge width rows age).size = width := by
  unfold rowOfAge
  split <;> simp

/-- The rows from top to bottom, if all of their slots lie within the cells. -/
def strictScreenRows? (w : Waterfall) (o : Orientation) : Option (List (Array Float32)) :=
  (List.range w.height).mapM fun y => w.strictSlot? (w.slotOfAge (o.ageAt w.height y))

namespace Keeps

variable {w : Waterfall} {rows : List (Array Float32)}

theorem spans (h : w.Keeps rows) : w.Spans w.width w.height := by
  have small := mostCells_lt
  have le := h.le
  exact ⟨rfl, rfl, h.size, by omega⟩

theorem screenRows_eq (h : w.Keeps rows) (o : Orientation) :
    w.screenRows o = (List.range w.height).map fun y => rowOfAge w.width rows (o.ageAt w.height y) := by
  have each : ∀ y ∈ List.range w.height,
      w.screenRow? o y = some (rowOfAge w.width rows (o.ageAt w.height y)) := by
    intro y member
    have inside := List.mem_range.1 member
    rw [screenRow?, if_pos inside, h.rowByAge?_eq, if_pos (o.ageAt_lt inside)]
  rw [screenRows, List.filterMap_congr each, ← List.filterMap_eq_map]
  rfl

/-- None of these rows reaches beyond the cells. -/
theorem strictScreenRows?_eq (h : w.Keeps rows) (o : Orientation) : w.strictScreenRows? o = some (w.screenRows o) := by
  rw [h.screenRows_eq]
  refine mapM_eq_some fun y member => ?_
  rw [h.spans.strictSlot?_eq, h.slot_of_age _ (o.ageAt_lt (List.mem_range.1 member))]

end Keeps

/-- With the cursor at the last slot, every slot that is not too far off is that of some age, even where a sum wraps. -/
theorem exists_age_of_slot {w : Waterfall} (last : w.cursor = w.height - 1) {slot : Nat} (lt : slot < w.height)
    (near : slot < 2 ^ 62) : ∃ age < w.height, w.slotOfAge age = slot := by
  unfold slotOfAge
  rw [last]
  by_cases fits : w.height + slot < 2 ^ 64
  · refine ⟨w.height - 1 - slot, by omega, ?_⟩
    have sum : (w.height - 1 + w.height + (0x10000000000000000 - (w.height - 1 - slot))) % 0x10000000000000000
        = w.height + slot := by omega
    rw [sum, Nat.add_mod_left, Nat.mod_eq_of_lt lt]
  · refine ⟨(2 * w.height - 1 - slot) % 2 ^ 64, by omega, ?_⟩
    have sum : (w.height - 1 + w.height + (0x10000000000000000 - (2 * w.height - 1 - slot) % 2 ^ 64))
        % 0x10000000000000000 = slot := by omega
    rw [sum, Nat.mod_eq_of_lt lt]

theorem strictScreenRows?_eq_none {w : Waterfall} {o : Orientation} {y : Nat} (inside : y < w.height)
    (beyond : w.cells.size < w.slotStart (w.slotOfAge (o.ageAt w.height y)) + w.width) :
    w.strictScreenRows? o = none := by
  refine mapM_eq_none (List.mem_range.2 inside) ?_
  rw [strictSlot?, Nat.mod_eq_of_lt (w.slotOfAge_lt _), part?, if_neg fun both => by omega]

/-- Where the count of cells has wrapped, not even the first picture can be drawn. -/
theorem strictScreenRows?_blank {width height : Nat} (wide : 1 ≤ width) (high : 1 ≤ height)
    (wraps : 2 ^ 64 ≤ width * height) (made : cellCount width height ≤ mostCells) (o : Orientation) :
    (blank width height).strictScreenRows? o = none := by
  have width_eq : (blank width height).width = width := Nat.max_eq_left wide
  have height_eq : (blank width height).height = height := Nat.max_eq_left high
  have size : (blank width height).cells.size = cellCount width height := by
    simp only [blank, Array.size_replicate, Nat.max_eq_left wide, Nat.max_eq_left high]
  obtain ⟨lt, beyond⟩ := slot_beyond wide wraps
  have small := mostCells_lt
  have near : cellCount width height / width ≤ cellCount width height := Nat.div_le_self ..
  have inside : cellCount width height / width < (blank width height).height := by rwa [height_eq]
  obtain ⟨age, young, slot⟩ := exists_age_of_slot rfl inside (by omega)
  refine strictScreenRows?_eq_none (o.ageAt_lt young) ?_
  rw [o.ageAt_ageAt young, slot, size, slotStart, width_eq]
  exact beyond

end Waterfall

/-! ## Pictures -/

/-- The pixels as `Frame.drawWaterfall` puts them, if no row reaches beyond the cells. -/
def Frame.strictDrawWaterfall? (f : Frame) (out : Array Rgb) : Option (Array Rgb) :=
  match f.waterfall with
  | none => some (out.shrink 0)
  | some w => (w.strictScreenRows? f.orientation).map (f.drawRows out)

namespace StreamView

/-- A view whose waterfall is drawn. -/
def DrawsWaterfall (v : StreamView) : Prop := v.mode = .spectrum ∧ v.waterfallShown = true

variable {v : StreamView}

theorem frame_waterfall (draws : v.DrawsWaterfall) : v.frame.waterfall = some v.waterfall := by
  simp [frame, draws.1, draws.2]

theorem frame_waterfall_of_not (hidden : ¬v.DrawsWaterfall) : v.frame.waterfall = none := by
  simpa [frame, DrawsWaterfall] using hidden

/-- What a view puts in place of `out` when it draws its waterfall of `height` lines, to which rows have been appended,
the last one first. -/
structure Pictures (v : StreamView) (out : Array Rgb) (width height : Nat) (rows : List (Array Float32)) : Prop where
  within : v.frame.strictDrawWaterfall? out = some (v.frame.drawWaterfall out)
  size : v.DrawsWaterfall → (v.frame.drawWaterfall out).size = width * height
  line : v.DrawsWaterfall → ∀ y < height, lineAt (v.frame.drawWaterfall out) width y
    = v.palette.colourRow v.waterfallMax (Waterfall.rowOfAge width rows (v.orientation.ageAt height y))
  mirrored : v.DrawsWaterfall → ∀ y < height,
    lineAt ({ v with orientation := .newestAtTop }.frame.drawWaterfall out) width y
      = lineAt ({ v with orientation := .newestAtBottom }.frame.drawWaterfall out) width (height - 1 - y)
  once : ∀ age < height, ∃! y, y < height ∧ v.orientation.ageAt height y = age
  hidden : ¬v.DrawsWaterfall → v.frame.drawWaterfall out = #[]

theorem size_rowsDrawn (v : StreamView) (rows : List (Array Float32)) :
    ∀ row ∈ (List.range v.waterfall.height).map fun y =>
      Waterfall.rowOfAge v.waterfall.width rows (v.orientation.ageAt v.waterfall.height y),
      row.size = v.waterfall.width := by
  intro row member
  obtain ⟨y, -, rfl⟩ := List.mem_map.1 member
  exact Waterfall.size_rowOfAge ..

section Kept

variable {rows : List (Array Float32)} (kept : v.waterfall.Keeps rows)

include kept

theorem drawWaterfall_eq (draws : v.DrawsWaterfall) (out : Array Rgb) :
    v.frame.drawWaterfall out = v.frame.drawRows out ((List.range v.waterfall.height).map fun y =>
      Waterfall.rowOfAge v.waterfall.width rows (v.orientation.ageAt v.waterfall.height y)) := by
  have orientation : v.frame.orientation = v.orientation := rfl
  rw [Frame.drawWaterfall, frame_waterfall draws]
  dsimp only
  rw [orientation, kept.screenRows_eq]

theorem lineAt_drawWaterfall (draws : v.DrawsWaterfall) (out : Array Rgb) {y : Nat} (inside : y < v.waterfall.height) :
    lineAt (v.frame.drawWaterfall out) v.waterfall.width y = v.palette.colourRow v.waterfallMax
      (Waterfall.rowOfAge v.waterfall.width rows (v.orientation.ageAt v.waterfall.height y)) := by
  rw [drawWaterfall_eq kept draws]
  refine Frame.lineAt_drawRows (v.size_rowsDrawn rows) out ?_
  rw [List.getElem?_map, List.getElem?_range inside]
  rfl

/-- A waterfall that keeps its rows is drawn as it should be. -/
theorem pictures (out : Array Rgb) : v.Pictures out v.waterfall.width v.waterfall.height rows where
  within := by
    have orientation : v.frame.orientation = v.orientation := rfl
    by_cases draws : v.DrawsWaterfall
    · rw [Frame.strictDrawWaterfall?, Frame.drawWaterfall, frame_waterfall draws]
      dsimp only
      rw [orientation, kept.strictScreenRows?_eq]
      rfl
    · rw [Frame.strictDrawWaterfall?, Frame.drawWaterfall, frame_waterfall_of_not draws]
  size := by
    intro draws
    rw [drawWaterfall_eq kept draws, Frame.size_drawRows (v.size_rowsDrawn rows), List.length_map, List.length_range]
  line := fun draws _ inside => lineAt_drawWaterfall kept draws out inside
  mirrored := by
    intro draws y inside
    have top := lineAt_drawWaterfall (v := { v with orientation := .newestAtTop }) kept draws out inside
    have other : v.waterfall.height - 1 - y < v.waterfall.height := Orientation.newestAtBottom.ageAt_lt inside
    have bottom := lineAt_drawWaterfall (v := { v with orientation := .newestAtBottom }) kept draws out other
    have back : Orientation.newestAtBottom.ageAt v.waterfall.height (v.waterfall.height - 1 - y) = y :=
      Orientation.newestAtBottom.ageAt_ageAt inside
    refine top.trans (Eq.trans ?_ bottom.symm)
    show _ = v.palette.colourRow v.waterfallMax (Waterfall.rowOfAge _ rows
      (Orientation.newestAtBottom.ageAt v.waterfall.height (v.waterfall.height - 1 - y)))
    rw [back]
    rfl
  once := fun _ lt => v.orientation.existsUnique_ageAt lt
  hidden := by
    intro hidden
    rw [Frame.drawWaterfall, frame_waterfall_of_not hidden]
    simp

end Kept

/-- A view that draws a waterfall, the newest row at the top. -/
def showing (w : Waterfall) : StreamView :=
  { ofConfig .ofRoots .narrow (.ofName "raw" true 128) with mode := .spectrum, waterfall := w, orientation := .newestAtTop }

theorem strictDrawWaterfall?_showing (w : Waterfall) (out : Array Rgb) :
    (showing w).frame.strictDrawWaterfall? out
      = (w.strictScreenRows? .newestAtTop).map ((showing w).frame.drawRows out) := rfl

end StreamView

theorem Waterfall.blank_width_height (width height : Nat) :
    blank (blank width height).width (blank width height).height = blank width height := by
  simp [blank]

/-- **Pictures of the waterfall.** Exactly if memory can hold the grid of a waterfall, it can be made, and whatever rows
have been appended to it and however often it has been cleared: a view that draws it puts in place of what was there
the lines of the screen and nothing else, each in the colours of the row of its age, cut or filled up with zeros; a
view that does not draw it leaves nothing there. -/
theorem draws_waterfall_iff (width height : Nat) :
    let blank := Waterfall.blank width height
    (Waterfall.cellCount blank.width blank.height ≤ Waterfall.mostCells
      ∧ ∀ (v : StreamView) (changes : List Waterfall.Change) (out : Array Rgb), v.waterfall = blank.nextAll changes →
        v.Pictures out blank.width blank.height (Waterfall.recent changes))
      ↔ blank.width * blank.height ≤ Waterfall.mostCells := by
  intro blank
  have wide : 1 ≤ blank.width := Nat.le_max_right width 1
  have high : 1 ≤ blank.height := Nat.le_max_right height 1
  have same : Waterfall.blank blank.width blank.height = blank := Waterfall.blank_width_height width height
  constructor
  · rintro ⟨made, pictures⟩
    by_cases wraps : 2 ^ 64 ≤ blank.width * blank.height
    · have drawn := (pictures (.showing blank) [] #[] rfl).within
      have none := Waterfall.strictScreenRows?_blank wide high wraps made .newestAtTop
      rw [StreamView.strictDrawWaterfall?_showing, ← same, none] at drawn
      cases drawn
    · rwa [Waterfall.cellCount, Nat.mod_eq_of_lt (by omega)] at made
  · intro le
    have small := Waterfall.mostCells_lt
    refine ⟨?_, fun v changes out shows => ?_⟩
    · rw [Waterfall.cellCount, Nat.mod_eq_of_lt (by omega)]
      exact le
    · have kept : v.waterfall.Keeps (Waterfall.recent changes) := by
        rw [shows, ← same]
        exact (Waterfall.keeps_blank wide high le).nextAll changes
      have drawn := StreamView.pictures kept out
      obtain ⟨width_eq, height_eq⟩ := Waterfall.size_nextAll blank changes
      rwa [shows, width_eq, height_eq] at drawn

/-- A row of so many begins so near the end of what a word can count that its own end wraps. -/
theorem Waterfall.slot_wrapped :
    let w := (blank 2 (2 ^ 63 + 1)).append #[5, 6]
    w.cells.size < w.slotStart (w.slotOfAge 2) + w.width := by
  decide +kernel

/-- So there are sizes that can be made and whose pictures cannot be drawn. -/
theorem not_forall_draws_waterfall : ¬∀ width height, 1 ≤ width → 1 ≤ height →
    Waterfall.cellCount width height ≤ Waterfall.mostCells →
      ∀ (v : StreamView) (changes : List Waterfall.Change) (out : Array Rgb),
        v.waterfall = (Waterfall.blank width height).nextAll changes →
          v.Pictures out width height (Waterfall.recent changes) := by
  intro all
  have pictures := all 2 (2 ^ 63 + 1) (by decide) (by decide) (by decide +kernel)
    (.showing ((Waterfall.blank 2 (2 ^ 63 + 1)).append #[5, 6])) [.append #[5, 6]] #[] rfl
  have none := Waterfall.strictScreenRows?_eq_none (o := .newestAtTop) (by decide) Waterfall.slot_wrapped
  have drawn := pictures.within
  rw [StreamView.strictDrawWaterfall?_showing, none] at drawn
  cases drawn

end Panadapter
