import Panadapter.Palette.Colour
import Panadapter.Scope.Command
import Panadapter.Spectrum.Processor
import Panadapter.Stream.Basic
import Panadapter.Waterfall.Basic
import Panadapter.Waterfall.Cadence

/-! # Views

A view is what the display keeps of a stream: the last window of samples, its spectrum and peak, and the waterfall.

* `StreamView.update`: one window taken from the queue, if there is one, and everything that follows from it.
* `StreamView.apply`: a change asked for by a command.
* `StreamView.frame`, `Frame.drawWaterfall`: what is drawn.
-/

namespace Panadapter

/-- The display of a stream. The plans of its processor come from its planner. The view is fresh when its last update
took a window. -/
structure StreamView where
  planner : Planner
  stream : Stream
  mode : DisplayMode
  source : SpectrumSource
  drain : DrainPolicy
  fftLength : FftLength
  plotMax : Option Float32
  palette : Palette
  window : Channels
  spectrum : Array Float32
  processor : SpectralProcessor
  waterfall : Waterfall
  waterfallShown : Bool
  waterfallMax : Float32
  orientation : Orientation
  cadence : Cadence
  fresh : Bool
  peak : Option (Nat × Float32)

/-- What is drawn of a stream in one frame. -/
structure Frame where
  name : String
  state : StreamState
  enabled : Bool
  fresh : Bool
  mode : DisplayMode
  window : Channels
  spectrum : Array Float32
  peak : Option (Nat × Float32)
  referenceMax : Float32
  waterfall : Option Waterfall
  waterfallMax : Float32
  orientation : Orientation
  palette : Palette
  queued : Nat
  stats : StreamStats

namespace StreamView

/-- The view of a stream by its configuration: all zeros. -/
def ofConfig (planner : Planner) (c : StreamConfig) (stream : Stream) : StreamView where
  planner := planner
  stream := stream
  mode := c.mode
  source := c.source
  drain := c.drain
  fftLength := c.fftLength
  plotMax := c.plotMax
  palette := c.palette
  window := .zeros c.fftLength.points
  spectrum := Array.replicate c.fftLength.points 0
  processor := .fresh
  waterfall := .blank c.waterfall.width c.waterfall.height
  waterfallShown := c.waterfall.enabled
  waterfallMax := c.waterfall.referenceMax
  orientation := c.waterfall.orientation
  cadence := .ofFrames c.waterfall.every
  fresh := false
  peak := none

/-- The name of the stream. -/
def name (v : StreamView) : String := v.stream.control.name

/-! ## Updates -/

/-- The oldest window of the queue, if it holds one. -/
def takeWindow (v : StreamView) : StreamView :=
  let (fresh, window, queue) := v.stream.queue.drainWindow v.fftLength.points v.drain v.window
  { v with stream := { v.stream with queue }, window, fresh }

/-- The spectrum of the window and its peak. -/
def refresh (v : StreamView) : Except SpectrumError StreamView :=
  match v.source with
  | .software =>
    (v.processor.compute? v.window v.planner).map fun (spectrum, processor) =>
      { v with processor, spectrum, peak := peak? spectrum }
  | .hardware => (magnitudes? v.window).map fun spectrum => { v with spectrum, peak := peak? spectrum }

/-- The spectrum as a row of the waterfall, if it is shown and the row is due. -/
def feedWaterfall (v : StreamView) : StreamView :=
  if v.waterfallShown then
    match v.cadence.tick with
    | (true, cadence) => { v with cadence, waterfall := v.waterfall.append v.spectrum }
    | (false, cadence) => { v with cadence }
  else v

/-- The view at the next frame if its stream has been found switched on, or what is wrong with the window and how the
view stands then. -/
def showNext (v : StreamView) : Except SpectrumError Unit × StreamView :=
  let v := v.takeWindow
  if v.mode ≠ .spectrum then (.ok (), v)
  else if v.fresh then
    match v.refresh with
    | .error e => (.error e, v)
    | .ok v => (.ok (), v.feedWaterfall)
  else (.ok (), v.feedWaterfall)

/-- The view at the next frame. A stream that is switched off is left as it is, but for the view not being fresh. -/
def update (v : StreamView) : Except SpectrumError Unit × StreamView :=
  if !v.stream.control.enabled then (.ok (), { v with fresh := false }) else v.showNext

/-! ## Changes -/

/-- Another length, with all that has the old length gone. -/
def setFftLength (v : StreamView) (length : FftLength) : StreamView :=
  if length = v.fftLength then v
  else
    { v with
      fftLength := length
      window := .zeros length.points
      spectrum := Array.replicate length.points 0
      peak := none }

/-- The change that a command asks for. -/
def apply (v : StreamView) : StreamCommand → StreamView
  | .enable => { v with stream := v.stream.enable }
  | .disable => { v with stream := v.stream.disable }
  | .setFftLength length => v.setFftLength length
  | .setPalette palette => { v with palette }
  | .setMode mode => { v with mode }
  | .setWaterfall enabled => { v with waterfallShown := enabled }
  | .setCadence every => { v with cadence := v.cadence.setEvery every }
  | .clearWaterfall => { v with waterfall := v.waterfall.clear }

/-! ## Frames -/

/-- The top of the plot: fixed by the configuration, or ten above the peak. -/
def referenceMax (v : StreamView) : Float32 :=
  match v.plotMax with
  | some top => top
  | none => (v.peak.elim 0 Prod.snd) + 10

/-- What is drawn. Spectrum and waterfall are left out when the samples are shown. -/
def frame (v : StreamView) : Frame :=
  let spectral := v.mode == .spectrum
  { name := v.name
    state := v.stream.control.state
    enabled := v.stream.control.enabled
    fresh := v.fresh
    mode := v.mode
    window := v.window
    spectrum := if spectral then v.spectrum else #[]
    peak := if spectral then v.peak else none
    referenceMax := v.referenceMax
    waterfall := if spectral && v.waterfallShown then some v.waterfall else none
    waterfallMax := v.waterfallMax
    orientation := v.orientation
    palette := v.palette
    queued := v.stream.queue.size
    stats := v.stream.control.stats }

@[simp] theorem frame_name (v : StreamView) : v.frame.name = v.name := rfl

end StreamView

namespace Frame

/-- The pixels with those of one more row. Its colours come by way of a line that all rows share. -/
def drawRow (f : Frame) (drawn : Array Rgb × Array Rgb) (row : Array Float32) : Array Rgb × Array Rgb :=
  let line := f.palette.colourRowInto drawn.2 f.waterfallMax row
  (drawn.1 ++ line, line)

/-- The pixels of rows, one after the other, in place of what `out` holds. -/
def drawRows (f : Frame) (out : Array Rgb) (rows : List (Array Float32)) : Array Rgb :=
  (rows.foldl f.drawRow (out.shrink 0, #[])).1

/-- The pixels of the waterfall, line by line from the top, in place of what `out` holds; none if it is not shown. -/
def drawWaterfall (f : Frame) (out : Array Rgb) : Array Rgb :=
  match f.waterfall with
  | none => out.shrink 0
  | some w => f.drawRows out (w.screenRows f.orientation)

/-- The pixels of the waterfall alone. -/
def waterfallPixels (f : Frame) : Array Rgb := f.drawWaterfall #[]

end Frame

end Panadapter
