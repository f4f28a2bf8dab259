/-! # The waterfall

A circular history of spectra: `height` slots of `width` cells each, and a cursor at the slot written last. An append
moves the cursor on and overwrites the slot there, so that the oldest row always stands right after the cursor.

* `Waterfall.append`, `Waterfall.clear`: the operations.
* `Waterfall.rowByAge?`, `Waterfall.rows`, `Waterfall.screenRow?`: the views.
-/

namespace Panadapter

/-- Where the newest row lands when the rows are drawn from top to bottom. -/
inductive Orientation where
  | newestAtBottom
  | newestAtTop
  deriving DecidableEq, Repr, Inhabited

namespace Orientation

/-- The orientations by name. -/
def named : List (String × Orientation) :=
  [("newest_at_bottom", newestAtBottom), ("newest_at_top", newestAtTop)]

/-- The name of an orientation. -/
def name : Orientation → String
  | newestAtBottom => "newest_at_bottom"
  | newestAtTop => "newest_at_top"

/-- The age of the row on line `y` of `height` lines. -/
def ageAt (o : Orientation) (height y : Nat) : Nat :=
  match o with
  | newestAtTop => y
  | newestAtBottom => height - 1 - y

end Orientation

/-- A history of `height` rows of `width` cells, in one array. -/
structure Waterfall where
  width : Nat
  height : Nat
  cells : Array Float32
  cursor : Nat
  appended : Nat
  cursor_lt : cursor < height

namespace Waterfall

/-- The usual count of cells in a row. -/
def defaultWidth : Nat := 1024

/-- The usual count of rows. -/
def defaultHeight : Nat := 256

/-- The count of cells of a grid, as a 64-bit word: a product beyond that wraps. -/
def cellCount (width height : Nat) : Nat := width * height % 0x10000000000000000

/-- A history of rows of zeros, one cell and one row at least. The first append lands on slot 0. -/
def blank (width height : Nat) : Waterfall where
  width := max width 1
  height := max height 1
  cells := Array.replicate (cellCount (max width 1) (max height 1)) 0
  cursor := max height 1 - 1
  appended := 0
  cursor_lt := by omega

/-- The rows that hold data. -/
def filled (w : Waterfall) : Nat := min w.appended w.height

/-- The slot after the cursor. -/
def nextSlot (w : Waterfall) : Nat := (w.cursor + 1) % w.height

/-- Where a slot begins in the array: an offset beyond a 64-bit word wraps like the count of cells. -/
def slotStart (w : Waterfall) (slot : Nat) : Nat := cellCount slot w.width

/-- `count` cells from `start` on, each from its place in the row; the row goes on with zeros. -/
def writeCells (cells : Array Float32) (start : Nat) (row : Array Float32) (count : Nat) : Array Float32 :=
  count.fold (fun k _ cells => cells.setIfInBounds (start + k) (row.getD k 0)) cells

/-- A row in the next slot, cut or filled up with zeros to the width. -/
def append (w : Waterfall) (row : Array Float32) : Waterfall :=
  { w with
    cells := writeCells w.cells (w.slotStart w.nextSlot) row w.width
    cursor := w.nextSlot
    appended := w.appended + 1
    cursor_lt := Nat.mod_lt _ (by have := w.cursor_lt; omega) }

/-- The row in a slot; slots are counted around. -/
def slot (w : Waterfall) (index : Nat) : Array Float32 :=
  let start := w.slotStart (index % w.height)
  w.cells.extract start (start + w.width)

/-- The slot of the row of an age below the height. The sum is a 64-bit word too. -/
def slotOfAge (w : Waterfall) (age : Nat) : Nat :=
  (w.cursor + w.height + (0x10000000000000000 - age)) % 0x10000000000000000 % w.height

/-- The row of an age: 0 is the newest. -/
def rowByAge? (w : Waterfall) (age : Nat) : Option (Array Float32) :=
  if age < w.height then some (w.slot (w.slotOfAge age)) else none

/-- All rows, newest first. -/
def rows (w : Waterfall) : List (Array Float32) := (List.range w.height).filterMap w.rowByAge?

/-- The row on a line of the screen; line 0 is at the top. -/
def screenRow? (w : Waterfall) (o : Orientation) (y : Nat) : Option (Array Float32) :=
  if y < w.height then w.rowByAge? (o.ageAt w.height y) else none

/-- All rows from top to bottom. -/
def screenRows (w : Waterfall) (o : Orientation) : List (Array Float32) :=
  (List.range w.height).filterMap (w.screenRow? o)

/-- A history of rows of zeros of the same size. -/
def clear (w : Waterfall) : Waterfall :=
  { w with
    cells := w.cells.map fun _ => 0
    cursor := w.height - 1
    appended := 0
    cursor_lt := by have := w.cursor_lt; omega }

@[simp] theorem size_writeCells (cells : Array Float32) (start : Nat) (row : Array Float32) (count : Nat) :
    (writeCells cells start row count).size = cells.size := by
  unfold writeCells
  induction count with
  | zero => simp
  | succ n ih => simpa using ih

@[simp] theorem size_cells_append (w : Waterfall) (row : Array Float32) :
    (w.append row).cells.size = w.cells.size := by
  simp [append]

end Waterfall

end Panadapter
