import Panadapter.Proofs.Json.Records
import Panadapter.Scope.Document

/-!
# Configurations, written and read

A configuration whose numbers fit their fields (`ScopeConfig.Expressible`) is read back from its text as it was, with
all that is optional, defaulted or tagged in it; so is a transport on its own (`configuration_survives_text`).

Each record has its values in the order of its members (`values`), and reading them one by one fills the record
(`fills`). That they can be written and that the record is read from them both follow.
-/

namespace Panadapter

open Json

/-! ## Transports -/

/-- A capture whose rate is a 32-bit word. -/
def CaptureConfig.Expressible (c : CaptureConfig) : Prop := c.sampleRate ≤ largest32

/-- A tone whose real numbers survive their texts, and whose stride is a 64-bit word. -/
structure ToneConfig.Expressible (c : ToneConfig) : Prop where
  frequency : SurvivesText readFloat Tree.ofFloat c.frequency
  sampleRate : SurvivesText readFloat Tree.ofFloat c.sampleRate
  amplitude : SurvivesText readFloat Tree.ofFloat c.amplitude
  stride : c.stride ≤ largest64

/-- A transport with numbers that a document can hold. -/
def TransportConfig.Expressible : TransportConfig → Prop
  | litepcie _ => True
  | capture c => c.Expressible
  | tone c => c.Expressible

theorem SampleFormat.read_name (p : Place) (f : SampleFormat) : read p (.string f.name) = .ok f := by
  cases f <;> rfl

/-- The values of a board channel, in the order of its members. -/
def LitepcieConfig.values (c : LitepcieConfig) : List Tree := [.string c.device, .bool c.zeroCopy]

/-- The values of a capture, in the order of its members. -/
def CaptureConfig.values (c : CaptureConfig) : List Tree :=
  [.string c.path, .string c.format.name, .ofNat c.sampleRate, .bool c.looped]

/-- The values of a tone, in the order of its members. -/
def ToneConfig.values (c : ToneConfig) : List Tree :=
  [.ofFloat c.frequency, .ofFloat c.sampleRate, .ofFloat c.amplitude, .ofNat c.stride]

theorem LitepcieConfig.fills (p : Place) (c : LitepcieConfig) : Fills p fields c.values { device := "" } c :=
  .required trivial rfl <|
  .defaulted trivial rfl <|
  .nil _

theorem CaptureConfig.fills (p : Place) {c : CaptureConfig} (h : c.Expressible) :
    Fills p fields c.values { path := "", sampleRate := 0 } c :=
  .required trivial rfl <|
  .defaulted trivial (SampleFormat.read_name p c.format) <|
  .required (writable_ofNat _) (readNat_ofNat h (by decide) p) <|
  .defaulted trivial rfl <|
  .nil _

theorem ToneConfig.fills (p : Place) {c : ToneConfig} (h : c.Expressible) :
    Fills p fields c.values { frequency := 0, sampleRate := 0 } c :=
  .required (writable_ofFloat _) (readFloat_ofFloat h.frequency p) <|
  .required (writable_ofFloat _) (readFloat_ofFloat h.sampleRate p) <|
  .defaulted (writable_ofFloat _) (readFloat_ofFloat h.amplitude p) <|
  .defaulted (writable_ofNat _) (readNat_ofNat h.stride (by decide) p) <|
  .nil _

/-! What stands beside the kind of a transport is kept until the kind is known. -/

theorem LitepcieConfig.kept (c : LitepcieConfig) (levels : Nat) : ∀ t ∈ c.values, t.isKept levels = true := by
  simp [values, Tree.isKept]

theorem CaptureConfig.kept {c : CaptureConfig} (h : c.Expressible) (levels : Nat) :
    ∀ t ∈ c.values, t.isKept levels = true := by
  simp [values, Tree.isKept, isKept_ofNat (Nat.lt_of_le_of_lt h (by decide)) levels]

theorem ToneConfig.kept {c : ToneConfig} (h : c.Expressible) (levels : Nat) :
    ∀ t ∈ c.values, t.isKept levels = true := by
  have real : ∀ {x}, SurvivesText readFloat Tree.ofFloat x → (Tree.ofFloat x).isKept levels = true :=
    fun survives => isKept_of_readFloat (readFloat_ofFloat survives .top) levels
  have whole := isKept_ofNat (Nat.lt_of_le_of_lt h.stride (by decide)) levels
  simp [values, real h.frequency, real h.sampleRate, real h.amplitude, whole]

namespace TransportConfig

theorem writable_toTree {t : TransportConfig} (h : t.Expressible) : t.toTree.Writable := by
  cases t with
  | litepcie c => exact ⟨trivial, (c.fills .top).writable⟩
  | capture c => exact ⟨trivial, (CaptureConfig.fills .top h).writable⟩
  | tone c => exact ⟨trivial, (ToneConfig.fills .top h).writable⟩

/-- A transport of a known kind, without the tag. -/
def readKind : TransportKind → Read TransportConfig
  | .litepcie => fun p t => (readRecord LitepcieConfig.fields { device := "" } p t).map litepcie
  | .capture => fun p t => (readRecord CaptureConfig.fields { path := "", sampleRate := 0 } p t).map capture
  | .tone => fun p t => (readRecord ToneConfig.fields { frequency := 0, sampleRate := 0 } p t).map tone

theorem read_eq (p : Place) (t : Tree) : read p t = (splitTag "kind" TransportKind.named p t >>= fun found =>
    readKind found.1 { p with held := true } found.2) := by
  unfold read
  congr 1
  funext found
  obtain ⟨kind, rest⟩ := found
  cases kind <;> rfl

/-- A record behind its kind is read if none of its members goes by the name of the tag and all can be kept. -/
theorem read_behind_kind {α : Type} {fields : List (RecordField α)} {values : List Tree} {blank c : α}
    {make : α → TransportConfig} {name : String} {kind : TransportKind} {p : Place} (room : p.levels ≠ 0)
    (known : choose TransportKind.named name = .ok kind)
    (record : ∀ p t, readKind kind p t = (readRecord fields blank p t).map make)
    (apart : "kind" ∉ fields.map RecordField.name) (nodup : (fields.map RecordField.name).Nodup)
    (kept : ∀ t ∈ values, t.isKept (p.levels - 1) = true) (fills : ∀ p, Fills p fields values blank c) :
    read p (.object (("kind", .string name) :: named fields values)) = .ok (make c) := by
  have split : splitTag "kind" TransportKind.named p (.object (("kind", .string name) :: named fields values))
      = .ok (kind, .object (named fields values)) := by
    refine splitTag_front room known ?_ (haveKept_named kept)
    rintro m mem same
    exact apart (same ▸ name_mem_of_named mem)
  have inner : ({ p with held := true } : Place).levels ≠ 0 := room
  rw [read_eq, split]
  show readKind kind { p with held := true } (.object (named fields values)) = _
  rw [record, readRecord_named inner nodup (fills _)]
  rfl

/-- **A transport is read from its document**, whichever kind it is. -/
theorem read_toTree {t : TransportConfig} (h : t.Expressible) {p : Place} (room : p.levels ≠ 0) :
    read p t.toTree = .ok t := by
  cases t with
  | litepcie c =>
    show read p (.object (("kind", .string "litepcie") :: named LitepcieConfig.fields c.values)) = _
    exact read_behind_kind room rfl (fun _ _ => rfl) (by decide) (by decide) (c.kept _) c.fills
  | capture c =>
    show read p (.object (("kind", .string "file") :: named CaptureConfig.fields c.values)) = _
    exact read_behind_kind room rfl (fun _ _ => rfl) (by decide) (by decide) (CaptureConfig.kept h _)
      (CaptureConfig.fills · h)
  | tone c =>
    show read p (.object (("kind", .string "tone") :: named ToneConfig.fields c.values)) = _
    exact read_behind_kind room rfl (fun _ _ => rfl) (by decide) (by decide) (ToneConfig.kept h _)
      (ToneConfig.fills · h)

end TransportConfig

/-! ## Streams -/

theorem Orientation.read_name (p : Place) (o : Orientation) : readChoice named p (.string o.name) = .ok o := by
  cases o <;> rfl

theorem DisplayMode.read_name (p : Place) (m : DisplayMode) : readChoice named p (.string m.name) = .ok m := by
  cases m <;> rfl

theorem SpectrumSource.read_name (p : Place) (s : SpectrumSource) : readChoice named p (.string s.name) = .ok s := by
  cases s <;> rfl

theorem DrainPolicy.read_name (p : Place) (d : DrainPolicy) : readChoice named p (.string d.name) = .ok d := by
  cases d <;> rfl

theorem Palette.read_toTree (p : Place) (palette : Palette) : read p palette.toTree = .ok palette := by
  cases palette <;> rfl

theorem FftLength.read_toTree (p : Place) (n : FftLength) : read p n.toTree = .ok n := by
  have le : n.points ≤ largest64 := by
    rw [points, Nat.one_shiftLeft]
    exact Nat.le_trans (Nat.pow_le_pow_right (by decide) n.le_twenty) (by decide)
  unfold read toTree
  rw [readNat_ofNat le (by decide)]
  simp only [bind, Except.bind, ofPoints?_points]
  rfl

/-- A waterfall whose sizes are words of their fields, and whose last magnitude survives its text. -/
structure WaterfallConfig.Expressible (c : WaterfallConfig) : Prop where
  width : c.width ≤ largest64
  height : c.height ≤ largest64
  every : c.every ≤ largest32
  referenceMax : SurvivesText readFloat32 Tree.ofFloat32 c.referenceMax

namespace WaterfallConfig

/-- The values of a waterfall, in the order of its members. -/
def values (c : WaterfallConfig) : List Tree :=
  [.bool c.enabled, .ofNat c.width, .ofNat c.height, .ofNat c.every, .string c.orientation.name,
    .ofFloat32 c.referenceMax]

theorem fills (p : Place) {c : WaterfallConfig} (h : c.Expressible) : Fills p fields c.values {} c :=
  .defaulted trivial rfl <|
  .defaulted (writable_ofNat _) (readNat_ofNat h.width (by decide) p) <|
  .defaulted (writable_ofNat _) (readNat_ofNat h.height (by decide) p) <|
  .defaulted (writable_ofNat _) (readNat_ofNat h.every (by decide) p) <|
  .defaulted trivial (Orientation.read_name p c.orientation) <|
  .defaulted (writable_ofFloat32 _) (readFloat32_ofFloat32 h.referenceMax p) <|
  .nil _

theorem writable_toTree {c : WaterfallConfig} (h : c.Expressible) : c.toTree.Writable := (fills .top h).writable

theorem read_toTree {c : WaterfallConfig} (h : c.Expressible) {p : Place} (room : p.levels ≠ 0) :
    read p c.toTree = .ok c :=
  readRecord_named room (by decide) (fills _ h)

end WaterfallConfig

/-- A stream with numbers that a document can hold. -/
structure StreamConfig.Expressible (c : StreamConfig) : Prop where
  transport : c.transport.Expressible
  stride : c.stride ≤ largest64
  scale : SurvivesText readFloat32 Tree.ofFloat32 c.scale
  queueCapacity : c.queueCapacity ≤ largest64
  plotMax : ∀ x ∈ c.plotMax, SurvivesText readFloat32 Tree.ofFloat32 x
  waterfall : c.waterfall.Expressible

namespace StreamConfig

/-- The values of a stream, in the order of its members. -/
def values (c : StreamConfig) : List Tree :=
  [.string c.name, c.transport.toTree, .ofNat c.stride, .ofFloat32 c.scale, .bool c.enabled, .string c.mode.name,
    .string c.source.name, .string c.drain.name, .ofNat c.queueCapacity, c.fftLength.toTree,
    .ofOption .ofFloat32 c.plotMax, c.palette.toTree, c.waterfall.toTree]

theorem fills {p : Place} (room : p.levels ≠ 0) {c : StreamConfig} (h : c.Expressible) :
    Fills p fields c.values { name := "", transport := .litepcie { device := "" } } c :=
  .required trivial rfl <|
  .required (TransportConfig.writable_toTree h.transport) (TransportConfig.read_toTree h.transport room) <|
  .defaulted (writable_ofNat _) (readNat_ofNat h.stride (by decide) p) <|
  .defaulted (writable_ofFloat32 _) (readFloat32_ofFloat32 h.scale p) <|
  .defaulted trivial rfl <|
  .defaulted trivial (DisplayMode.read_name p c.mode) <|
  .defaulted trivial (SpectrumSource.read_name p c.source) <|
  .defaulted trivial (DrainPolicy.read_name p c.drain) <|
  .defaulted (writable_ofNat _) (readNat_ofNat h.queueCapacity (by decide) p) <|
  .defaulted (writable_ofNat _) (FftLength.read_toTree p c.fftLength) <|
  .defaulted (writable_ofOption writable_ofFloat32 c.plotMax)
    (readOption_ofOption rfl fun x mem => readFloat32_ofFloat32 (h.plotMax x mem) p) <|
  .defaulted trivial (Palette.read_toTree p c.palette) <|
  .defaulted (WaterfallConfig.writable_toTree h.waterfall) (WaterfallConfig.read_toTree h.waterfall room) <|
  .nil _

theorem writable_toTree {c : StreamConfig} (h : c.Expressible) : c.toTree.Writable :=
  (fills (p := .top) (by decide) h).writable

theorem read_toTree {c : StreamConfig} (h : c.Expressible) {p : Place} (room : 2 ≤ p.levels) :
    read p c.toTree = .ok c :=
  readRecord_named (by omega) (by decide) (fills (by show p.levels - 1 ≠ 0; omega) h)

end StreamConfig

/-! ## The whole configuration -/

/-- A configuration with numbers that a document can hold. -/
structure ScopeConfig.Expressible (c : ScopeConfig) : Prop where
  fps : SurvivesText readFloat Tree.ofFloat c.fps
  streams : ∀ s ∈ c.streams, s.Expressible

namespace ScopeConfig

/-- The values of a configuration, in the order of its members. -/
def values (c : ScopeConfig) : List Tree := [.ofFloat c.fps, .array (c.streams.map StreamConfig.toTree)]

theorem allWritable_streams : ∀ {streams : List StreamConfig}, (∀ s ∈ streams, s.Expressible) →
    Tree.AllWritable (streams.map StreamConfig.toTree)
  | [], _ => trivial
  | s :: _, h => ⟨StreamConfig.writable_toTree (h s List.mem_cons_self),
      allWritable_streams fun t mem => h t (List.mem_cons_of_mem s mem)⟩

theorem fills {p : Place} (room : 3 ≤ p.levels) {c : ScopeConfig} (h : c.Expressible) :
    Fills p fields c.values { streams := [] } c :=
  .defaulted (writable_ofFloat _) (readFloat_ofFloat h.fps p) <|
  .required (allWritable_streams h.streams) (readList_map (by omega) fun s mem =>
    StreamConfig.read_toTree (h.streams s mem) (by show 2 ≤ p.levels - 1; omega)) <|
  .nil _

theorem writable_toTree {c : ScopeConfig} (h : c.Expressible) : c.toTree.Writable :=
  (fills (p := .top) (by decide) h).writable

theorem read_toTree {c : ScopeConfig} (h : c.Expressible) : read .top c.toTree = .ok c :=
  readRecord_named (by decide) (by decide) (fills (by decide) h)

end ScopeConfig

/-- **A configuration survives its text**, on one line, on several lines, and on several lines with a line break at the
end; so does a transport on its own. Of real numbers it is asked that each survives its own text: the reader of numbers
misses some doubles (`not_forall_survivesText`), and what is no number or not finite has no text at all. -/
theorem configuration_survives_text (c : ScopeConfig) (t : TransportConfig) (hc : c.Expressible) (ht : t.Expressible) :
    (decode ScopeConfig.read c.toTree.compact = .ok c
      ∧ decode ScopeConfig.read c.toTree.pretty = .ok c
      ∧ decode ScopeConfig.read (c.toTree.pretty ++ "\n") = .ok c)
    ∧ decode TransportConfig.read t.toTree.compact = .ok t
      ∧ decode TransportConfig.read t.toTree.pretty = .ok t := by
  have scope := ScopeConfig.writable_toTree hc
  have transport := TransportConfig.writable_toTree ht
  rw [decode_compact _ scope, decode_pretty _ scope, decode_pretty_line _ scope, decode_compact _ transport,
    decode_pretty _ transport, ScopeConfig.read_toTree hc, TransportConfig.read_toTree ht (by decide)]
  exact ⟨⟨rfl, rfl, rfl⟩, rfl, rfl⟩

/-- The longest spectrum is long enough. -/
theorem FftLength.seven_le_twenty : 7 ≤ 20 := by decide

/-- A stream of every kind, with names that need escapes and members away from their defaults. -/
def ScopeConfig.mixed : ScopeConfig where
  fps := 29.97
  streams :=
    [{ name := "a \"b\" \\ c\n\x01\x7f é𝄞"
       transport := .tone { frequency := -100000, sampleRate := 1.92e6, amplitude := 0.5, stride := 3 }
       scale := 0.1
       mode := .rawIq
       plotMax := some 500 },
     { name := ""
       transport := .capture { path := "/tmp/ü\t.cf32", format := .cf32, sampleRate := largest32, looped := false }
       stride := largest64
       source := .hardware
       drain := .wholeWindows
       fftLength := ⟨20, FftLength.seven_le_twenty, by decide⟩
       palette := .viridis
       waterfall := { enabled := false, width := 0, orientation := .newestAtTop, referenceMax := 1e-6 } },
     { name := "raw", transport := .litepcie { device := "/dev/m2sdr0", zeroCopy := true }, enabled := true }]

theorem ScopeConfig.expressible_mixed : mixed.Expressible where
  fps := by decide +kernel
  streams := by
    rintro _ (_ | ⟨_, _ | ⟨_, _ | ⟨_, ⟨⟩⟩⟩⟩)
    · exact {
        transport := ⟨by decide +kernel, by decide +kernel, by decide +kernel, by decide⟩
        stride := by decide
        scale := by decide +kernel
        queueCapacity := by decide
        plotMax := by rintro _ ⟨⟩; decide +kernel
        waterfall := ⟨by decide, by decide, by decide, by decide +kernel⟩ }
    · exact {
        transport := Nat.le_refl largest32
        stride := Nat.le_refl largest64
        scale := by decide +kernel
        queueCapacity := by decide
        plotMax := nofun
        waterfall := ⟨by decide, by decide, by decide, by decide +kernel⟩ }
    · exact {
        transport := trivial
        stride := by decide
        scale := by decide +kernel
        queueCapacity := by decide
        plotMax := nofun
        waterfall := ⟨by decide, by decide, by decide, by decide +kernel⟩ }

/-- With names that need escapes and members away from their defaults, and for a tone on its own. -/
theorem configuration_survives_text_mixed :
    ScopeConfig.mixed.Expressible
    ∧ (TransportConfig.tone { frequency := 2.5e5, sampleRate := 1e6 }).Expressible
    ∧ decode ScopeConfig.read ScopeConfig.mixed.toTree.compact = .ok ScopeConfig.mixed
    ∧ decode ScopeConfig.read ScopeConfig.mixed.toTree.pretty = .ok ScopeConfig.mixed
    ∧ decode TransportConfig.read (TransportConfig.tone { frequency := 2.5e5, sampleRate := 1e6 }).toTree.compact
      = .ok (.tone { frequency := 2.5e5, sampleRate := 1e6 }) := by
  have tone : (TransportConfig.tone { frequency := 2.5e5, sampleRate := 1e6 }).Expressible :=
    ⟨by decide +kernel, by decide +kernel, by decide +kernel, by decide⟩
  have survives := configuration_survives_text ScopeConfig.mixed (.tone { frequency := 2.5e5, sampleRate := 1e6 })
    ScopeConfig.expressible_mixed tone
  exact ⟨ScopeConfig.expressible_mixed, tone, survives.1.1, survives.1.2.1, survives.2.1⟩

end Panadapter
