import Panadapter.Decimal.Layout
import Panadapter.Palette.Basic
import Panadapter.Sample.Queue
import Panadapter.Spectrum.FftLength
import Panadapter.Transport.Config
import Panadapter.Waterfall.Basic

/-! # Configuration of the scope

What the scope shows: a list of streams, each with its source, its queue, its transform and its waterfall, and how many
frames there are in a second.

* `ScopeConfig.usual`: the configuration of a board with one channel of samples and one of spectra.
* `ScopeConfig.validate`: the first thing that is wrong with a configuration.
* `ScopeConfig.simulate`: tones in place of all sources.
-/

namespace Panadapter

/-- What is shown of a stream: its samples, or their spectrum. -/
inductive DisplayMode where
  | rawIq
  | spectrum
  deriving DecidableEq, Repr, Inhabited

namespace DisplayMode

/-- The modes by name. -/
def named : List (String × DisplayMode) := [("raw_iq", rawIq), ("spectrum", spectrum)]

/-- The name of a mode. -/
def name : DisplayMode → String
  | rawIq => "raw_iq"
  | spectrum => "spectrum"

end DisplayMode

/-- Where a spectrum comes from: from the transform of the samples, or from the board, whose samples are bins then. -/
inductive SpectrumSource where
  | software
  | hardware
  deriving DecidableEq, Repr, Inhabited

namespace SpectrumSource

/-- The sources by name. -/
def named : List (String × SpectrumSource) := [("software", software), ("hardware", hardware)]

/-- The name of a source. -/
def name : SpectrumSource → String
  | software => "software"
  | hardware => "hardware"

end SpectrumSource

/-- The waterfall of a stream. `every` is its cadence in frames and `referenceMax` the magnitude of the last colour. -/
structure WaterfallConfig where
  enabled : Bool := true
  width : Nat := Waterfall.defaultWidth
  height : Nat := Waterfall.defaultHeight
  every : Nat := 1
  orientation : Orientation := .newestAtBottom
  referenceMax : Float32 := 500
  deriving DecidableEq, Repr, Inhabited

/-- The usual count of samples that a queue holds. -/
def usualQueueCapacity : Nat := 1 <<< 21

/-- A stream. `stride` words make a sample group, whose words are divided by `scale`; `plotMax` is the top of the plot
if it is fixed. -/
structure StreamConfig where
  name : String
  transport : TransportConfig
  stride : Nat := 2
  scale : Float32 := 1
  enabled : Bool := false
  mode : DisplayMode := .spectrum
  source : SpectrumSource := .software
  drain : DrainPolicy := .discardAll
  queueCapacity : Nat := usualQueueCapacity
  fftLength : FftLength := .usual
  plotMax : Option Float32 := none
  palette : Palette := .grayscale
  waterfall : WaterfallConfig := {}
  deriving DecidableEq, Repr

/-- All streams, and the frames in a second. -/
structure ScopeConfig where
  fps : Float := 60
  streams : List StreamConfig
  deriving DecidableEq, Repr

/-- The least count of frames in a second. -/
def minFps : Float := 0.001

/-! ## Faults -/

/-- What is wrong with a configuration; all but the first two name the stream. -/
inductive ConfigError where
  | frameRate (fps : Float)
  | noStreams
  | duplicateName (name : String)
  | stride (name : String)
  | scale (name : String)
  | capacity (name : String) (held points : Nat)
  | waterfall (name : String)
  deriving DecidableEq, Repr

/-- The wording of a configuration error. -/
def ConfigError.message : ConfigError → String
  | frameRate fps => "fps must be at least " ++ Decimal.textOfFloat minFps ++ ", got " ++ Decimal.textOfFloat fps
  | noStreams => "no streams configured"
  | duplicateName name => "duplicate stream name '" ++ name ++ "'"
  | stride name => "stream '" ++ name ++ "': stride must be at least 2"
  | scale name => "stream '" ++ name ++ "': scale must be finite and non-zero"
  | capacity name held points =>
    "stream '" ++ name ++ "': queue capacity " ++ toString held ++ " is smaller than FFT length " ++ toString points
  | waterfall name => "stream '" ++ name ++ "': waterfall dimensions must be non-zero"

/-- The first thing that is wrong with a stream, given the names of the streams before it. -/
def StreamConfig.validate (s : StreamConfig) (earlier : List String) : Except ConfigError Unit :=
  if s.name ∈ earlier then .error (.duplicateName s.name)
  else if s.stride < 2 then .error (.stride s.name)
  else if !(s.scale.isFinite && s.scale != 0) then .error (.scale s.name)
  else if s.queueCapacity < s.fftLength.points then .error (.capacity s.name s.queueCapacity s.fftLength.points)
  else if s.waterfall.width = 0 ∨ s.waterfall.height = 0 then .error (.waterfall s.name)
  else .ok ()

namespace ScopeConfig

/-- The first thing that is wrong with streams, given the names of those before them. -/
def validateStreams : List String → List StreamConfig → Except ConfigError Unit
  | _, [] => .ok ()
  | earlier, s :: rest =>
    match s.validate earlier with
    | .error e => .error e
    | .ok () => validateStreams (s.name :: earlier) rest

/-- The first thing that is wrong with a configuration. -/
def validate (c : ScopeConfig) : Except ConfigError Unit :=
  if !(c.fps.isFinite && c.fps ≥ minFps) then .error (.frameRate c.fps)
  else if c.streams.isEmpty then .error .noStreams
  else validateStreams [] c.streams

end ScopeConfig

/-- A stream with nothing wrong has a new name and a queue for a whole window. -/
theorem StreamConfig.of_validate {s : StreamConfig} {earlier : List String} (h : s.validate earlier = .ok ()) :
    s.name ∉ earlier ∧ s.fftLength.points ≤ s.queueCapacity := by
  unfold validate at h
  by_cases known : s.name ∈ earlier
  · rw [if_pos known] at h
    cases h
  · rw [if_neg known] at h
    by_cases small : s.queueCapacity < s.fftLength.points
    · rw [if_pos small] at h
      split at h
      · cases h
      · split at h <;> cases h
    · exact ⟨known, by omega⟩

namespace ScopeConfig

/-- Streams with nothing wrong have names of their own, and queues for whole windows. -/
theorem of_validateStreams {earlier : List String} {streams : List StreamConfig}
    (h : validateStreams earlier streams = .ok ()) : (streams.map StreamConfig.name).Nodup
      ∧ ∀ s ∈ streams, s.name ∉ earlier ∧ s.fftLength.points ≤ s.queueCapacity := by
  induction streams generalizing earlier with
  | nil => exact ⟨List.nodup_nil, by intro s mem; cases mem⟩
  | cons s rest ih =>
    rw [validateStreams] at h
    cases first : s.validate earlier with
    | error e =>
      rw [first] at h
      cases h
    | ok done =>
      rw [first] at h
      obtain ⟨nodup, others⟩ := ih h
      obtain ⟨new, room⟩ := StreamConfig.of_validate first
      constructor
      · rw [List.map_cons, List.nodup_cons]
        refine ⟨?_, nodup⟩
        intro mem
        obtain ⟨t, inside, same⟩ := List.mem_map.1 mem
        exact (others t inside).1 (same ▸ List.mem_cons_self)
      · intro t mem
        rcases List.mem_cons.1 mem with rfl | mem
        · exact ⟨new, room⟩
        · obtain ⟨apart, room⟩ := others t mem
          exact ⟨fun inside => apart (List.mem_cons_of_mem _ inside), room⟩

/-- The streams of a valid configuration have names of their own, and queues for whole windows. -/
theorem of_validate {c : ScopeConfig} (h : c.validate = .ok ()) : (c.streams.map StreamConfig.name).Nodup
    ∧ ∀ s ∈ c.streams, s.fftLength.points ≤ s.queueCapacity := by
  unfold validate at h
  split at h
  · cases h
  · split at h
    · cases h
    · obtain ⟨nodup, each⟩ := of_validateStreams h
      exact ⟨nodup, fun s mem => (each s mem).2⟩

/-! ## Changes -/

/-- The first stream of a name. -/
def stream? (c : ScopeConfig) (name : String) : Option StreamConfig := c.streams.find? fun s => s.name == name

/-- Another configuration for every stream. -/
def mapStreams (f : StreamConfig → StreamConfig) (c : ScopeConfig) : ScopeConfig :=
  { c with streams := c.streams.map f }

/-- The tone for the stream at an index: different streams get different frequencies. -/
def toneAt (rate : Float) (index : Nat) (s : StreamConfig) : TransportConfig :=
  .tone {
    frequency := rate / 16 * Float.ofNat (index + 1)
    sampleRate := rate
    amplitude := 0.5
    stride := s.stride }

/-- A tone in place of every source. -/
def simulate (rate : Float) (c : ScopeConfig) : ScopeConfig :=
  { c with streams := c.streams.zipIdx.map fun (s, index) => { s with transport := toneAt rate index s } }

/-- The samples of the first channel of a board and the spectra of the second one. -/
def usual : ScopeConfig where
  streams :=
    [{ name := "raw"
       transport := .litepcie { device := "/dev/m2sdr0" }
       stride := 4
       scale := 2047
       mode := .rawIq
       plotMax := some 500 },
     { name := "fft"
       transport := .litepcie { device := "/dev/m2sdr1" }
       source := .hardware
       drain := .wholeWindows }]

end ScopeConfig

end Panadapter
