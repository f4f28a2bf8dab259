import Panadapter.Sample.Queue
import Panadapter.Spectrum.Transform

/-! # Plans of transforms

A plan is made once for a length. It transforms a buffer of complex numbers in place, and writes on some scratch beside
it while it does so.

* `Plan`: a transform of one length.
* `Plan.spectrum`: the magnitudes of the bins of a window.
* `Planner`: where plans come from.
-/

namespace Panadapter

/-- The magnitude of a complex number, in single precision. -/
def magnitude (re im : Float32) : Float32 := (re * re + im * im).sqrt

/-- The magnitude of a sample or a bin. -/
def Sample.magnitude (s : Sample) : Float32 := Panadapter.magnitude s.i s.q

/-- The samples of a window in one array. -/
def Channels.zip (c : Channels) : Array Sample := Array.zipWith Sample.mk c.i c.q

/-- A transform of one length. What it makes of a buffer and of the scratch beside it takes their places. -/
structure Plan where
  length : FftLength
  scratchLength : Nat
  process : Array Sample → Array Sample → Array Sample × Array Sample
  size_process : ∀ buffer scratch,
    (process buffer scratch).1.size = buffer.size ∧ (process buffer scratch).2.size = scratch.size

/-- Where plans come from: one of the wanted length each time. -/
structure Planner where
  plan : FftLength → Plan
  length_plan : ∀ length, (plan length).length = length

/-- So many samples of zero. -/
def zeroSamples (n : Nat) : Array Sample := Array.replicate n ⟨0, 0⟩

namespace Plan

/-- The magnitudes of the bins of a window, computed beside some scratch. -/
def spectrumBy (p : Plan) (scratch : Array Sample) (window : Channels) : Array Float32 :=
  (p.process window.zip scratch).1.map Sample.magnitude

/-- The magnitudes of the bins of a window. -/
def spectrum (p : Plan) (window : Channels) : Array Float32 := p.spectrumBy (zeroSamples p.scratchLength) window

/-- A buffer transformed by means of a table of roots; the scratch is not used. -/
def processBy (roots : Signal) (log : Nat) (buffer scratch : Array Sample) : Array Sample × Array Sample :=
  let part (f : Sample → Float32) (k : Nat) : Float := (buffer[k]?.elim 0 f).toFloat
  let bins := transformBy roots 1 log (Signal.tabulate buffer.size (part Sample.i) (part Sample.q))
  let bin (k : Nat) : Sample := ⟨(Signal.numberAt bins.re k).toFloat32, (Signal.numberAt bins.im k).toFloat32⟩
  ((Array.range buffer.size).map bin, scratch)

/-- The plan of a length, with its own table of roots. -/
def ofLength (length : FftLength) : Plan where
  length
  scratchLength := 0
  process := processBy (rootsOfUnity length.log) length.log
  size_process := fun buffer scratch => ⟨by simp [processBy], rfl⟩

end Plan

/-- The planner of the transform at hand. -/
def Planner.ofRoots : Planner := ⟨Plan.ofLength, fun _ => rfl⟩

theorem Channels.size_zip (c : Channels) : c.zip.size = c.size := by simp [zip, size]

theorem Plan.size_spectrumBy (p : Plan) (scratch : Array Sample) (window : Channels) :
    (p.spectrumBy scratch window).size = window.size := by
  rw [spectrumBy, Array.size_map, (p.size_process _ _).1, Channels.size_zip]

end Panadapter
