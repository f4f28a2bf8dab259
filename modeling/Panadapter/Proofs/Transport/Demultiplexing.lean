import Mathlib.Data.List.GetD
import Mathlib.Data.List.ReduceOption
import Panadapter.Proofs.Transport.Replay
import Panadapter.Sample.Demux
import Panadapter.Scope.Config

/-!
# Samples of a replay

The words of a capture are demultiplexed buffer by buffer, and every buffer begins with a new group. The words of a
group that the end of a buffer cuts are lost, and the groups after it are other ones than in the capture.

* Pieces of whole groups are demultiplexed on their own (`samplesOf_flatten`).
* The cut into buffers does not show in the samples exactly if groups fill a buffer, or all whole groups are in the
  first one (`seamless_iff`).
-/

namespace Panadapter

/-- The samples of words: the first two words of every group of `stride` words, divided by `scale`. -/
def samplesOf (stride : Nat) (scale : Float32) (words : List Int16) : List Sample :=
  (List.range (words.length / stride)).map fun k =>
    ⟨Float32.ofInt (words.getD (stride * k) 0).toInt / scale,
      Float32.ofInt (words.getD (stride * k + 1) 0).toInt / scale⟩

section Groups

variable {stride : Nat} {scale : Float32} {first words : List Int16}

theorem exists_mem_samplesOf (scale : Float32) {k : Nat} (h : k < words.length / stride) :
    ∃ s ∈ samplesOf stride scale words, s.i = Float32.ofInt (words.getD (stride * k) 0).toInt / scale :=
  ⟨_, List.mem_map_of_mem (List.mem_range.2 h), rfl⟩

theorem samplesOf_of_lt (less : words.length < stride) : samplesOf stride scale words = [] := by
  rw [samplesOf, Nat.div_eq_of_lt less]
  rfl

theorem group_lt (two : 2 ≤ stride) {k n : Nat} (h : k < n / stride) : stride * k + 1 < n :=
  Demux.stride_mul_add_one_lt ⟨stride, 1, two⟩ h

/-- Words that do not make another group do not matter. -/
theorem samplesOf_append_of_le (two : 2 ≤ stride) (rest : List Int16)
    (short : (first ++ rest).length / stride ≤ first.length / stride) :
    samplesOf stride scale (first ++ rest) = samplesOf stride scale first := by
  have same : (first ++ rest).length / stride = first.length / stride := by
    refine Nat.le_antisymm short (Nat.div_le_div_right ?_)
    rw [List.length_append]
    omega
  rw [samplesOf, same]
  refine List.map_congr_left fun k mem => ?_
  have inside := group_lt two (List.mem_range.1 mem)
  rw [List.getD_append _ _ _ _ inside, List.getD_append _ _ _ _ (by omega)]

/-- Whole groups are demultiplexed on their own. -/
theorem samplesOf_append (two : 2 ≤ stride) (whole : stride ∣ first.length) (rest : List Int16) :
    samplesOf stride scale (first ++ rest) = samplesOf stride scale first ++ samplesOf stride scale rest := by
  obtain ⟨m, length⟩ := whole
  have pos : 0 < stride := by omega
  have groups : first.length / stride = m := by rw [length, Nat.mul_div_cancel_left _ pos]
  have more : (first ++ rest).length / stride = m + rest.length / stride := by
    rw [List.length_append, length, Nat.mul_add_div pos]
  rw [samplesOf, samplesOf, samplesOf, more, groups, List.range_add, List.map_append, List.map_map]
  congr 1
  · refine List.map_congr_left fun k mem => ?_
    have inside := group_lt two (groups ▸ List.mem_range.1 mem)
    rw [List.getD_append _ _ _ _ inside, List.getD_append _ _ _ _ (by omega)]
  · refine List.map_congr_left fun k _ => ?_
    have shift : stride * (m + k) = first.length + stride * k := by rw [Nat.mul_add, length]
    rw [Function.comp, shift, List.getD_append_right _ _ _ _ (by omega), List.getD_append_right _ _ _ _ (by omega),
      Nat.add_sub_cancel_left, Nat.add_assoc, Nat.add_sub_cancel_left]

/-- Pieces of whole groups, all but the last, are demultiplexed on their own. -/
theorem samplesOf_flatten (two : 2 ≤ stride) {pieces : List (List Int16)}
    (whole : ∀ p ∈ pieces.dropLast, stride ∣ p.length) :
    pieces.flatMap (samplesOf stride scale) = samplesOf stride scale pieces.flatten := by
  induction pieces with
  | nil => exact (samplesOf_of_lt (by simp; omega)).symm
  | cons p rest ih =>
    cases rest with
    | nil => simp
    | cons q rest =>
      rw [List.dropLast_cons_of_ne_nil (List.cons_ne_nil q rest)] at whole
      have later := ih fun p mem => whole p (List.mem_cons_of_mem _ mem)
      rw [List.flatMap_cons, later, ← samplesOf_append two (whole p List.mem_cons_self)]
      rfl

/-- If there is no whole group after those of the first piece, the other pieces have no samples. -/
theorem samplesOf_cons_of_le (two : 2 ≤ stride) {rest : List (List Int16)}
    (short : (first ++ rest.flatten).length / stride ≤ first.length / stride) :
    (first :: rest).flatMap (samplesOf stride scale) = samplesOf stride scale (first ++ rest.flatten) := by
  have less : rest.flatten.length < stride := by
    by_contra enough
    have more : (first.length + stride) / stride ≤ (first ++ rest.flatten).length / stride := by
      rw [List.length_append]
      exact Nat.div_le_div_right (by omega)
    rw [Nat.add_div_right _ (by omega)] at more
    omega
  have nothing : rest.flatMap (samplesOf stride scale) = [] := by
    refine List.flatMap_eq_nil_iff.2 fun p mem => samplesOf_of_lt ?_
    exact Nat.lt_of_le_of_lt (List.sublist_flatten_of_mem mem).length_le less
  rw [List.flatMap_cons, nothing, List.append_nil, samplesOf_append_of_le two _ short]

/-- If all words are zero but one, which begins a group that does not end in the first piece, then no sample of a piece
begins with this word. -/
theorem i_of_mem_pieces (two : 2 ≤ stride) {rest : List (List Int16)} {word : Int16} {zeros : Nat}
    (torn : stride * (first.length / stride) < first.length)
    (words : first ++ rest.flatten
      = List.replicate (stride * (first.length / stride)) 0 ++ [word] ++ List.replicate zeros 0) :
    ∀ s ∈ (first :: rest).flatMap (samplesOf stride scale), s.i = Float32.ofInt (0 : Int16).toInt / scale := by
  have later : ∀ x ∈ rest.flatten, x = 0 := by
    intro x mem
    have drop := congrArg (List.drop first.length) words
    rw [List.drop_left, List.drop_append, List.drop_eq_nil_of_le (by simp; omega), List.nil_append] at drop
    rw [drop] at mem
    exact List.eq_of_mem_replicate (List.mem_of_mem_drop mem)
  intro s mem
  obtain ⟨piece, inside, mem⟩ := List.mem_flatMap.1 mem
  obtain ⟨k, group, rfl⟩ := List.mem_map.1 mem
  have group := List.mem_range.1 group
  have lt := group_lt two group
  have zero : piece.getD (stride * k) 0 = 0 := by
    rcases List.mem_cons.1 inside with rfl | inside
    · have before : stride * k < stride * (piece.length / stride) := Nat.mul_lt_mul_of_pos_left group (by omega)
      have at_ := congrArg (fun l => l.getD (stride * k) 0) words
      rw [List.getD_append _ _ _ _ (by omega), List.append_assoc, List.getD_append _ _ _ _ (by simpa using before),
        List.getD_replicate _ before] at at_
      exact at_
    · rw [List.getD_eq_getElem _ _ (by omega)]
      exact later _ (List.mem_flatten.2 ⟨piece, inside, List.getElem_mem _⟩)
  rw [zero]

end Groups

@[simp] theorem Demux.samples_eq (d : Demux) (words : Array Int16) :
    d.samples words = samplesOf d.stride d.scale words.toList := by
  simp [samples, samplesOf, count, sampleAt, part, Array.getD_eq_getD_getElem?, List.getD_eq_getElem?_getD]

/-! ## Samples of polls -/

namespace Replay

/-- The samples of all buffers that polls give, one buffer after the other. -/
def samples (r : Replay) (d : Demux) (waits : List Nat) : List Sample :=
  (r.answers waits).reduceOption.flatMap fun b => (d.channels b).toList

theorem reduceOption_range {α : Type} (l : List α) (n : Nat) :
    ((List.range n).map fun k => l[k]?).reduceOption = l.take n := by
  induction n with
  | zero => rfl
  | succ n ih =>
    rw [List.range_succ, List.map_append, List.reduceOption_append, ih, List.take_add_one]
    simp only [List.map_cons, List.map_nil]
    cases l[n]? <;> rfl

/-- Every buffer is demultiplexed on its own. -/
theorem Reads.samples_start {r : Replay} {f : SampleFormat} {bytes : List UInt8} (h : r.Reads f bytes false)
    (d : Demux) (history : List ReplayCall) (wait : Nat) (waits : List Nat) :
    ((r.nextAll history).next (.start wait)).samples d waits
      = (((f.buffers bytes).take waits.length).map Array.toList).flatMap (samplesOf d.stride d.scale) := by
  rw [samples, h.answers_start, reduceOption_range, List.flatMap_map]
  simp

end Replay

/-- Whether the samples of a replay are those of the whole capture, whatever the calls before, as soon as there are
polls enough. -/
def StoredCapture.Seamless (r : StoredCapture) (stride : Nat) (scale : Float32) : Prop :=
  ∃ c polls, Capture.open? r.storage r.config = .ok c ∧ ∀ now history wait waits, polls ≤ waits.length →
    (((Replay.mk c now).nextAll history).next (.start wait)).samples (.ofStride stride scale) waits
      = samplesOf stride scale r.words

namespace SampleFormat

variable {f : SampleFormat} {stride : Nat} {scale : Float32}

theorem flatten_buffers (bytes : List UInt8) : ((f.buffers bytes).map Array.toList).flatten = f.decode bytes := by
  rw [← flatMap_buffers, List.flatMap_def]

/-- All whole groups are in the first buffer, or groups fill every buffer but the last. -/
theorem samplesOf_buffers (two : 2 ≤ stride) (bytes : List UInt8)
    (fits : stride ∣ dmaBufferWords ∨ (f.decode bytes).length / stride ≤ dmaBufferWords / stride) :
    ((f.buffers bytes).map Array.toList).flatMap (samplesOf stride scale)
      = samplesOf stride scale (f.decode bytes) := by
  rw [← flatten_buffers]
  rcases fits with filled | short
  · refine samplesOf_flatten two fun p mem => ?_
    rw [← List.map_dropLast] at mem
    obtain ⟨b, inside, rfl⟩ := List.mem_map.1 mem
    rw [Array.length_toList, size_of_mem_dropLast_buffers b inside]
    exact filled
  · by_cases enough : f.wordBytes ≤ bytes.length
    · have whole := flatten_buffers (f := f) bytes
      rw [buffers_of_le enough, List.map_cons, List.flatten_cons] at whole ⊢
      refine samplesOf_cons_of_le two ?_
      rw [whole, length_decode_take, length_decode]
      rw [length_decode] at short
      rcases Nat.le_total (bytes.length / f.wordBytes) dmaBufferWords with less | more
      · exact Nat.le_of_eq (by rw [Nat.min_eq_right less])
      · rw [Nat.min_eq_left more]
        exact short
    · rw [buffers_of_lt (by omega)]
      exact (samplesOf_of_lt (by simp; omega)).symm

/-- A word of zero bytes is zero. -/
theorem decode_zeros (n : Nat) : f.decode (List.replicate (n * f.wordBytes) 0) = List.replicate n 0 := by
  have zero : f.decode (List.replicate f.wordBytes 0) = [0] := by cases f <;> decide +kernel
  induction n with
  | zero =>
    rw [Nat.zero_mul]
    exact decode_of_lt f.wordBytes_pos
  | succ n ih =>
    rw [Nat.succ_mul, Nat.add_comm, List.replicate_add, decode_append (by simp), zero, ih]
    rfl

/-- Words may all be zero but one, which is not zero as a number either. -/
theorem exists_marked (f : SampleFormat) (before after : Nat) : ∃ bytes word,
    f.decode bytes = List.replicate before 0 ++ [word] ++ List.replicate after 0
      ∧ Float32.ofInt word.toInt / 1 ≠ Float32.ofInt (0 : Int16).toInt / 1 := by
  have mark : ∃ bytes word, f.decode bytes = [word] ∧ bytes.length = f.wordBytes
      ∧ Float32.ofInt word.toInt / 1 ≠ Float32.ofInt (0 : Int16).toInt / 1 := by
    cases f with
    | ci8 => exact ⟨[1], 256, by decide +kernel⟩
    | ci16 => exact ⟨[1, 0], 1, by decide +kernel⟩
    | cf32 => exact ⟨[0, 0, 128, 63], 32767, by decide +kernel⟩
  obtain ⟨bytes, word, decoded, length, apart⟩ := mark
  refine ⟨List.replicate (before * f.wordBytes) 0 ++ (bytes ++ List.replicate (after * f.wordBytes) 0), word, ?_,
    apart⟩
  have whole : f.wordBytes ∣ (List.replicate (before * f.wordBytes) (0 : UInt8)).length := by
    rw [List.length_replicate]
    exact Nat.dvd_mul_left _ _
  have whole_mark : f.wordBytes ∣ bytes.length := length ▸ Nat.dvd_refl _
  rw [decode_append whole, decode_append whole_mark, decode_zeros, decode_zeros, decoded, List.append_assoc]

/-- A group that the end of the first buffer cuts may begin with a word that no sample of a buffer begins with. -/
theorem exists_torn (f : SampleFormat) (two : 2 ≤ stride) (n : Nat) (torn : ¬stride ∣ dmaBufferWords)
    (more : dmaBufferWords / stride < n / stride) : ∃ bytes, (f.decode bytes).length = n ∧
      ((f.buffers bytes).map Array.toList).flatMap (samplesOf stride 1) ≠ samplesOf stride 1 (f.decode bytes) := by
  have cut : stride * (dmaBufferWords / stride) < dmaBufferWords := by
    refine Nat.lt_of_le_of_ne (Nat.mul_div_le _ _) fun same => torn ⟨_, same.symm⟩
  have long : dmaBufferWords < n := by
    by_contra short
    exact absurd (Nat.div_le_div_right (Nat.not_lt.1 short)) (Nat.not_le.2 more)
  obtain ⟨bytes, word, words, apart⟩ := f.exists_marked (stride * (dmaBufferWords / stride))
    (n - (stride * (dmaBufferWords / stride) + 1))
  have length : (f.decode bytes).length = n := by
    rw [words]
    simp
    omega
  refine ⟨bytes, length, fun same => apart ?_⟩
  have whole := flatten_buffers (f := f) bytes
  have first := length_decode_take (f := f) bytes
  rw [length_decode] at length
  rw [length, Nat.min_eq_left (Nat.le_of_lt long)] at first
  have enough : f.wordBytes ≤ bytes.length := by
    by_contra less
    rw [Nat.div_eq_of_lt (Nat.lt_of_not_le less)] at length
    omega
  rw [buffers_of_le enough, List.map_cons] at same whole
  have starts : ∀ s ∈ samplesOf stride 1 (f.decode bytes), s.i = Float32.ofInt (0 : Int16).toInt / 1 :=
    same ▸ i_of_mem_pieces two (by rw [first]; exact cut) (whole.trans (by rw [words, first]))
  -- The marked word begins the group after those of the first buffer.
  have group : dmaBufferWords / stride < (f.decode bytes).length / stride := by
    rw [length_decode, length]
    exact more
  obtain ⟨s, mem, i⟩ := exists_mem_samplesOf 1 group
  have marked : (f.decode bytes).getD (stride * (dmaBufferWords / stride)) 0 = word := by
    rw [words, List.append_assoc, List.getD_append_right _ _ _ _ (by simp), List.length_replicate, Nat.sub_self]
    rfl
  rw [← starts s mem, i, marked]

end SampleFormat

/-- A replay is seamless if its buffers are. -/
theorem StoredCapture.seamless_iff_buffers (r : StoredCapture) (once : r.config.looped = false) {stride : Nat}
    (two : 2 ≤ stride) (scale : Float32) : r.Seamless stride scale ↔
      ((r.config.format.buffers r.file.bytes).map Array.toList).flatMap (samplesOf stride scale)
        = samplesOf stride scale r.words := by
  have delivered : ∀ now history wait waits, (r.config.format.buffers r.file.bytes).length ≤ waits.length →
      (((Replay.mk r.capture now).nextAll history).next (.start wait)).samples (.ofStride stride scale) waits
        = ((r.config.format.buffers r.file.bytes).map Array.toList).flatMap (samplesOf stride scale) := by
    intro now history wait waits enough
    have reads := Replay.reads_capture r now
    have same : (Demux.ofStride stride scale).stride = stride := Nat.max_eq_left two
    rw [once] at reads
    rw [reads.samples_start, List.take_of_length_le enough, same]
    rfl
  constructor
  · rintro ⟨c, polls, opened, same⟩
    rw [r.open?_eq] at opened
    cases opened
    obtain ⟨waits, enough, more⟩ : ∃ waits : List Nat, polls ≤ waits.length
        ∧ (r.config.format.buffers r.file.bytes).length ≤ waits.length :=
      ⟨List.replicate (polls + (r.config.format.buffers r.file.bytes).length) 0, by simp, by simp⟩
    rw [← same 0 [] 0 waits enough, delivered 0 [] 0 waits more]
  · intro same
    exact ⟨r.capture, _, r.open?_eq, fun now history wait waits enough =>
      (delivered now history wait waits enough).trans same⟩

/-- **Demultiplexing.** Whatever words a capture of some length has, the samples of its buffers are those of the whole
capture, exactly if groups fill a buffer, or there are no more whole groups than in the first one. -/
theorem seamless_iff (f : SampleFormat) {stride : Nat} (two : 2 ≤ stride) (n : Nat) :
    (∀ r : StoredCapture, r.config.format = f → r.config.looped = false → r.words.length = n →
      ∀ scale, r.Seamless stride scale)
    ↔ stride ∣ dmaBufferWords ∨ n / stride ≤ dmaBufferWords / stride := by
  constructor
  · intro all
    by_contra fits
    obtain ⟨torn, more⟩ := not_or.1 fits
    obtain ⟨bytes, length, apart⟩ := f.exists_torn two n torn (Nat.lt_of_not_le more)
    have seamless := all (.ofBytes f false bytes) rfl rfl length 1
    exact apart (((StoredCapture.ofBytes f false bytes).seamless_iff_buffers rfl two 1).1 seamless)
  · rintro fits r rfl once rfl scale
    exact (r.seamless_iff_buffers once two scale).2 (SampleFormat.samplesOf_buffers two r.file.bytes fits)

/-- Three words in groups of two. -/
theorem seamless_three_words :
    (StoredCapture.ofBytes .ci16 false (SampleFormat.image [1, -2, 3])).Seamless 2 1 :=
  (seamless_iff .ci16 (by decide) 3).2 (.inl (by decide)) _ rfl rfl (by rw [StoredCapture.words]; decide) 1

/-- A stream of a capture with words in groups of three. -/
def ScopeConfig.triples (c : CaptureConfig) : ScopeConfig where
  streams := [{ name := "iq", transport := .capture c, stride := 3 }]

theorem ScopeConfig.validate_triples (c : CaptureConfig) : (triples c).validate = .ok () := by
  have fps : (!((60 : Float).isFinite && decide ((60 : Float) ≥ minFps))) = false := by decide +kernel
  have scale : (!((1 : Float32).isFinite && (1 : Float32) != 0)) = false := by decide +kernel
  rw [validate, triples, fps]
  simp only [validateStreams, StreamConfig.validate, scale]
  rfl

/-- So a valid configuration may lose samples: groups of three do not fill a buffer. -/
theorem not_forall_seamless : ¬∀ c : ScopeConfig, c.validate = .ok () → ∀ s ∈ c.streams, ∀ r : StoredCapture,
    s.transport = .capture r.config → r.config.looped = false → r.Seamless s.stride s.scale := by
  intro all
  obtain ⟨bytes, -, apart⟩ := SampleFormat.ci16.exists_torn (show 2 ≤ 3 by decide) 8192 (by decide) (by decide)
  have valid := ScopeConfig.validate_triples (StoredCapture.ofBytes .ci16 false bytes).config
  have seamless := all _ valid _ List.mem_cons_self (.ofBytes .ci16 false bytes) rfl rfl
  exact apart (((StoredCapture.ofBytes .ci16 false bytes).seamless_iff_buffers rfl (by decide) 1).1 seamless)

end Panadapter
