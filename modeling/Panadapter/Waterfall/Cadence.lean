/-! # The cadence of the waterfall

One frame in so many feeds the waterfall. The frames are counted from the beginning, and a change of the cadence does
not start the count again.
-/

namespace Panadapter

/-- One frame in `every`, and the frames counted so far. -/
structure Cadence where
  every : Nat
  frames : Nat
  every_pos : 0 < every
  deriving DecidableEq, Repr

namespace Cadence

/-- A cadence of at least one frame. -/
def ofFrames (every : Nat) : Cadence := ⟨max every 1, 0, by omega⟩

/-- The usual cadence: every frame. -/
def usual : Cadence := ofFrames 1

/-- The same count under another cadence. -/
def setEvery (c : Cadence) (every : Nat) : Cadence := ⟨max every 1, c.frames, by omega⟩

/-- One more frame, and whether it is one that feeds the waterfall. -/
def tick (c : Cadence) : Bool × Cadence :=
  let frames := c.frames + 1
  (frames % c.every == 0, { c with frames })

end Cadence

end Panadapter
