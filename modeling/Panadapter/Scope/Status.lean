import Panadapter.Decimal.Fixed
import Panadapter.Log
import Panadapter.Scope.View

/-! # Status lines

A display without a screen: every so many frames it logs a line about each stream.
-/

namespace Panadapter

/-- The peak of a frame in words. -/
def Frame.peakText (f : Frame) : String :=
  match f.peak with
  | some (bin, value) => "peak bin " ++ toString bin ++ " mag " ++ Decimal.fixed 1 (.ofFloat32 value)
  | none => "no spectrum"

/-- The status line of a frame. -/
def Frame.statusLine (f : Frame) : String :=
  "[" ++ f.name ++ "] " ++ f.state.title ++ " fresh=" ++ truthName f.fresh ++ " " ++ f.peakText ++ " queued="
    ++ toString f.queued ++ " buffers=" ++ toString f.stats.buffers ++ " dropped=" ++ toString f.stats.dropped
    ++ " rows=" ++ toString (f.waterfall.elim 0 Waterfall.filled)

/-- The status lines of a frame of a number, if it is one of every `every`. -/
def statusLog (every number : Nat) (frames : List Frame) : Log :=
  if number % max every 1 = 0 then frames.map fun f => ⟨.info, f.statusLine⟩ else []

end Panadapter
