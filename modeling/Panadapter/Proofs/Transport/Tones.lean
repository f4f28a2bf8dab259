import Mathlib.Logic.Function.Iterate
import Panadapter.Proofs.Decimal.Bounds
import Panadapter.Proofs.Transport.Demultiplexing
import Panadapter.Transport.Tone

/-!
# Tones

The phases of a tone are those of one angle added over and over, from zero on. A buffer takes the next so many of them,
and how many that is depends on the stride of its groups; the phases do not. Of the two coordinates of a point on its
circle only their bounds matter (`Circle.Bounded`).

* The words of a group are its pair, over and over (`Tone.getElem?_groups`, `Tone.getElem?_group_pair`).
* No word is larger than the full scale (`Tone.word_within`), since rounding does not take a product beyond it.
* Buffers one after the other are one run of groups (`Tone.flatMap_groups`), so their samples are the pairs of one
  sequence (`ToneConfig.samples_buffers`).
* Whatever the calls before, a start begins it again (`ToneRun.Generates.answers_start`).
* So the tone is the same for all strides (`tone_same_for_all_strides`).
-/

namespace Panadapter

open Decimal (Reading Within InUnit IsOfFormat)

/-! ## Whole parts within a bound -/

/-- The whole part of a number within a whole bound is within the bound. -/
theorem Decimal.truncate_finite_within {m n : ℕ} {e low high : ℤ} (le : (m : ℚ) * 2 ^ e ≤ n) (neg : low ≤ -n)
    (pos : n ≤ high) (negative narrow : Bool) : -n ≤ (Reading.finite negative m e narrow).truncate low high
      ∧ (Reading.finite negative m e narrow).truncate low high ≤ n := by
  have whole : ((m <<< e.toNat >>> (-e).toNat : ℕ) : ℤ) ≤ n := by
    rw [← Decimal.floor_mul_two_zpow, ← Int.floor_natCast (R := ℚ) n]
    exact Int.floor_mono le
  simp only [Reading.truncate]
  generalize m <<< e.toNat >>> (-e).toNat = k at *
  cases negative with
  | false =>
    rw [if_neg Bool.false_ne_true]
    omega
  | true =>
    rw [if_pos rfl]
    omega

theorem Decimal.truncate_ofFloat_within {x : Float} {n : ℕ} {low high : ℤ} (within : Within n x.toModel.unpack)
    (neg : low ≤ -n) (pos : n ≤ high) :
    -n ≤ (Reading.ofFloat x).truncate low high ∧ (Reading.ofFloat x).truncate low high ≤ n := by
  obtain ⟨narrow, read⟩ := Decimal.exists_read_eq .binary64 x.toBits.toBitVec
  have same : Reading.ofFloat x = Decimal.readingOf narrow Float.Model.Format.binary64.minExponent x.toModel.unpack :=
    read
  rw [same]
  cases parts : x.toModel.unpack with
  | notANumber =>
    show -(n : ℤ) ≤ 0 ∧ 0 ≤ (n : ℤ)
    omega
  | infinity s =>
    rw [parts] at within
    exact within.elim
  | zero s =>
    have zero : ((0 : ℕ) : ℚ) * 2 ^ Float.Model.Format.binary64.minExponent ≤ n := by simp
    exact Decimal.truncate_finite_within zero neg pos _ _
  | finite s m e =>
    rw [parts] at within
    exact Decimal.truncate_finite_within within neg pos _ _

/-! ## The sequence of a tone -/

/-- Whether both coordinates are always numbers from -1 to 1, or no numbers. -/
structure Circle.Bounded (circle : Circle) : Prop where
  cos : ∀ x, InUnit (circle.cos x)
  sin : ∀ x, InUnit (circle.sin x)

/-- The sample of a pair of words, divided by a scale. -/
def Sample.ofPair (scale : Float32) (pair : Int16 × Int16) : Sample :=
  ⟨Float32.ofInt pair.1.toInt / scale, Float32.ofInt pair.2.toInt / scale⟩

namespace Tone

/-- The phase one sample later. -/
def advance (t : Tone) (phase : Float) : Float := wrapTurn (phase + t.step)

/-- The pair of words at a phase. -/
def pairAt (circle : Circle) (t : Tone) (phase : Float) : Int16 × Int16 :=
  (t.word (circle.cos phase), t.word (circle.sin phase))

/-- Whether a generator differs from another one only in where it stands. -/
def IsStateOf (u t : Tone) : Prop := ∃ phase armed pacer, u = { t with phase, armed, pacer }

theorem IsStateOf.moved {u t : Tone} (same : u.IsStateOf t) (phase : Float) (armed : Bool) (pacer : Pacer) :
    Tone.IsStateOf { u with phase, armed, pacer } t := by
  obtain ⟨_, _, _, rfl⟩ := same
  exact ⟨phase, armed, pacer, rfl⟩

/-- The count of groups in a buffer. -/
def groupsPerBuffer (t : Tone) : Nat := dmaBufferWords / t.stride

end Tone

/-- The generator of a configuration, without pacing. -/
def ToneConfig.generator (c : ToneConfig) : Tone where
  device := "tone:" ++ Decimal.textOfFloat c.frequency ++ "Hz"
  stride := c.stride
  amplitude := Tone.clampUnit c.amplitude
  step := turn * c.frequency / c.sampleRate
  phase := 0
  armed := false
  pacer := .unpaced

/-- The pairs of a configuration one after the other, from phase zero on. -/
def ToneConfig.pairs (circle : Circle) (c : ToneConfig) (k : Nat) : Int16 × Int16 :=
  c.generator.pairAt circle (c.generator.advance^[k] 0)

/-- The pairs do not depend on the stride. -/
theorem ToneConfig.pairs_stride (circle : Circle) (c : ToneConfig) (stride : Nat) :
    { c with stride }.pairs circle = c.pairs circle := rfl

theorem Tone.open?_eq_ok_iff {c : ToneConfig} {t : Tone} : Tone.open? c false = .ok t
    ↔ 2 ≤ c.stride ∧ (c.sampleRate.isFinite = true ∧ 1 ≤ c.sampleRate) ∧ t = c.generator := by
  unfold Tone.open?
  by_cases narrow : c.stride < 2
  · rw [if_pos narrow]
    exact iff_of_false nofun fun h => absurd h.1 (Nat.not_le.2 narrow)
  · rw [if_neg narrow]
    by_cases rate : (c.sampleRate.isFinite && decide (c.sampleRate ≥ 1)) = true
    · rw [rate, if_neg (by decide)]
      simp only [Bool.and_eq_true, decide_eq_true_eq] at rate
      exact ⟨fun same => ⟨Nat.not_lt.1 narrow, rate, (Except.ok.inj same).symm⟩, fun h => h.2.2 ▸ rfl⟩
    · rw [Bool.eq_false_iff.2 rate, if_pos (by decide)]
      refine iff_of_false nofun fun h => rate ?_
      simp only [Bool.and_eq_true, decide_eq_true_eq]
      exact h.2.1

namespace Tone

variable {circle : Circle} {t : Tone} {phase : Float} {k n p : Nat}

/-! ## Groups -/

/-- A run of groups goes on where another one ends. -/
theorem groups_add (m n : Nat) (phase : Float) : (t.groups circle (m + n) phase).1
    = (t.groups circle m phase).1 ++ (t.groups circle n (t.advance^[m] phase)).1 := by
  induction m generalizing phase with
  | zero => rw [Nat.zero_add]; rfl
  | succ m ih =>
    rw [Nat.succ_add]
    show t.group circle phase ++ (t.groups circle (m + n) (t.advance phase)).1 = _
    rw [ih, ← List.append_assoc]
    rfl

theorem snd_groups (n : Nat) (phase : Float) : (t.groups circle n phase).2 = t.advance^[n] phase := by
  induction n generalizing phase with
  | zero => rfl
  | succ n ih => exact ih (t.advance phase)

@[simp] theorem length_group (circle : Circle) (t : Tone) (phase : Float) :
    (t.group circle phase).length = t.stride := by
  simp [group]
  omega

@[simp] theorem length_groups (n : Nat) (phase : Float) :
    (t.groups circle n phase).1.length = t.stride * n := by
  induction n generalizing phase with
  | zero => rfl
  | succ n ih =>
    show (t.group circle phase ++ (t.groups circle n (t.advance phase)).1).length = _
    rw [List.length_append, length_group, ih, Nat.mul_succ, Nat.add_comm]

/-- A word of a group among others. -/
theorem getElem?_groups {j : Nat} (inside : k < n) (within : j < t.stride) (phase : Float) :
    (t.groups circle n phase).1[t.stride * k + j]? = (t.group circle (t.advance^[k] phase))[j]? := by
  induction n generalizing k phase with
  | zero => exact absurd inside (Nat.not_lt_zero k)
  | succ n ih =>
    show (t.group circle phase ++ (t.groups circle n (t.advance phase)).1)[t.stride * k + j]? = _
    cases k with
    | zero =>
      rw [Nat.mul_zero, Nat.zero_add, List.getElem?_append_left (by rw [length_group]; exact within)]
      rfl
    | succ k =>
      have place : t.stride * (k + 1) + j - t.stride = t.stride * k + j := by
        rw [Nat.mul_succ]
        omega
      rw [List.getElem?_append_right (by rw [length_group, Nat.mul_succ]; omega), length_group, place,
        ih (Nat.lt_of_succ_lt_succ inside)]
      rfl

theorem getElem?_flatten_replicate_pair {α : Type} (a b : α) (inside : p < n) :
    (List.replicate n [a, b]).flatten[2 * p]? = some a ∧ (List.replicate n [a, b]).flatten[2 * p + 1]? = some b := by
  induction n generalizing p with
  | zero => exact absurd inside (Nat.not_lt_zero p)
  | succ n ih =>
    rw [List.replicate_succ, List.flatten_cons]
    cases p with
    | zero => exact ⟨rfl, rfl⟩
    | succ p => exact ih (Nat.lt_of_succ_lt_succ inside)

/-- Every pair of words of a group is the pair at its phase. -/
theorem getElem?_group_pair (inside : p < t.stride / 2) :
    (t.group circle phase)[2 * p]? = some (t.pairAt circle phase).1
      ∧ (t.group circle phase)[2 * p + 1]? = some (t.pairAt circle phase).2 := by
  have length : (List.replicate (t.stride / 2) [t.word (circle.cos phase), t.word (circle.sin phase)]).flatten.length
      = 2 * (t.stride / 2) := by
    simp
    omega
  obtain ⟨first, second⟩ :=
    getElem?_flatten_replicate_pair (t.word (circle.cos phase)) (t.word (circle.sin phase)) inside
  unfold group
  dsimp only
  rw [List.getElem?_append_left (by omega), List.getElem?_append_left (by omega)]
  exact ⟨first, second⟩

/-- A word that is left over is zero. -/
theorem getElem?_group_odd (odd : t.stride % 2 = 1) : (t.group circle phase)[t.stride - 1]? = some 0 := by
  have length : (List.replicate (t.stride / 2) [t.word (circle.cos phase), t.word (circle.sin phase)]).flatten.length
      = t.stride - 1 := by
    simp
    omega
  unfold group
  dsimp only
  rw [List.getElem?_append_right (by omega), length, odd, Nat.sub_self]
  rfl

/-! ## Samples of groups -/

/-- The samples of groups are their pairs. -/
theorem samplesOf_groups (two : 2 ≤ t.stride) (scale : Float32) (n : Nat) (phase : Float) :
    samplesOf t.stride scale (t.groups circle n phase).1
      = (List.range n).map fun k => .ofPair scale (t.pairAt circle (t.advance^[k] phase)) := by
  have count : t.stride * n / t.stride = n := Nat.mul_div_cancel_left n (by omega)
  rw [samplesOf, length_groups, count]
  refine List.map_congr_left fun k mem => ?_
  have inside := List.mem_range.1 mem
  have i : (t.groups circle n phase).1[t.stride * k]? = some (t.pairAt circle (t.advance^[k] phase)).1 :=
    (getElem?_groups inside (by omega) phase).trans (getElem?_group_pair (p := 0) (by omega)).1
  have q : (t.groups circle n phase).1[t.stride * k + 1]? = some (t.pairAt circle (t.advance^[k] phase)).2 :=
    (getElem?_groups inside (by omega) phase).trans (getElem?_group_pair (p := 0) (by omega)).2
  rw [List.getD_eq_getElem?_getD, List.getD_eq_getElem?_getD, i, q]
  rfl

/-! ## Sizes of words -/

/-- A number cut to the unit interval lies there. -/
theorem inUnit_clampUnit (x : Float) : InUnit (clampUnit x) := by
  unfold clampUnit
  split
  · exact .inr (by decide +kernel)
  · split
    · exact .inr (by decide +kernel)
    · rename_i above below
      cases nan : x.isNaN with
      | true => exact .inl nan
      | false =>
        rw [Decimal.lt_iff_rank] at above below
        have zero : Float.isNaN 0 = false := by decide +kernel
        have one : Float.isNaN 1 = false := by decide +kernel
        have minus_one : (-1 : Float) ≤ 0 := by decide +kernel
        have up := not_lt.1 fun lt => above ⟨nan, zero, lt⟩
        have down := not_lt.1 fun lt => below ⟨one, nan, lt⟩
        obtain ⟨number, -, low⟩ := Decimal.le_iff_rank.1 minus_one
        have from_minus_one := Decimal.le_iff_rank.2 ⟨number, nan, low.trans up⟩
        exact .inr ⟨from_minus_one, Decimal.le_iff_rank.2 ⟨nan, one, down⟩⟩

theorem within_fullScale : Within 2047 toneFullScale.toModel.unpack := by
  have parts : toneFullScale.toModel.unpack = .finite .positive (2047 * 2 ^ 42) (-42) (by decide) := rfl
  rw [parts]
  show ((2047 * 2 ^ 42 : ℕ) : ℚ) * 2 ^ (-42 : ℤ) ≤ 2047
  norm_num

/-- No word is larger than the full scale. -/
theorem word_within (amplitude : InUnit t.amplitude) {x : Float} (coordinate : InUnit x) :
    -2047 ≤ (t.word x).toInt ∧ (t.word x).toInt ≤ 2047 := by
  have small : (2 : ℚ) ^ 11 ≤ 2 ^ 1024 := pow_le_pow_right₀ one_le_two (by decide)
  have one : IsOfFormat .binary64 1 := ⟨1, 0, by decide, by decide, by norm_num⟩
  have fullScale : IsOfFormat .binary64 2047 := ⟨2047, 0, by decide, by decide, by norm_num⟩
  -- Each product is rounded, and neither goes beyond the whole number that bounds it.
  have reduced : Within 1 (x * t.amplitude).toModel.unpack :=
    Decimal.within_mul (Decimal.within_one coordinate) (Decimal.within_one amplitude) (by norm_num) one
      (lt_of_lt_of_le (by norm_num) small)
  have scaled : Within 2047 (x * t.amplitude * toneFullScale).toModel.unpack :=
    Decimal.within_mul reduced within_fullScale (by norm_num) fullScale (lt_of_lt_of_le (by norm_num) small)
  obtain ⟨low, high⟩ := Decimal.truncate_ofFloat_within (n := 2047) scaled (show -32768 ≤ -2047 by decide)
    (show 2047 ≤ 32767 by decide)
  unfold word
  rw [Int16.toInt_ofInt_of_le (by omega) (by omega)]
  exact ⟨low, high⟩

/-! ## Buffers -/

/-- The next buffer of a generator at a phase. -/
def bufferAt (circle : Circle) (t : Tone) (phase : Float) : Array Int16 :=
  (t.groups circle t.groupsPerBuffer phase).1.toArray

/-- What a poll of a generator that delivers does. -/
theorem pollOn_of_armed {now : Nat} (armed : t.armed = true) (due : (t.pacer.release now).1 = true) :
    t.pollOn circle now = (some (t.bufferAt circle t.phase),
      { t with pacer := (t.pacer.release now).2, phase := t.advance^[t.groupsPerBuffer] t.phase }) := by
  rcases released : t.pacer.release now with ⟨due', pacer⟩
  rw [released] at due
  cases due
  rw [pollOn, armed, released]
  show (some _, _) = _
  rw [snd_groups]
  rfl

namespace IsStateOf

variable {u : Tone}

theorem advance_eq (same : u.IsStateOf t) : u.advance = t.advance := by
  obtain ⟨_, _, _, rfl⟩ := same
  rfl

theorem groupsPerBuffer_eq (same : u.IsStateOf t) : u.groupsPerBuffer = t.groupsPerBuffer := by
  obtain ⟨_, _, _, rfl⟩ := same
  rfl

/-- Where a generator stands makes no difference to its groups. -/
theorem groups_eq (same : u.IsStateOf t) (n : Nat) (phase : Float) :
    u.groups circle n phase = t.groups circle n phase := by
  obtain ⟨_, armed, pacer, rfl⟩ := same
  induction n generalizing phase with
  | zero => rfl
  | succ n ih =>
    have later := ih (t.advance phase)
    rw [groups, groups]
    exact congrArg (fun rest => (t.group circle phase ++ rest.1, rest.2)) later

theorem bufferAt_eq (same : u.IsStateOf t) (phase : Float) : u.bufferAt circle phase = t.bufferAt circle phase := by
  rw [bufferAt, same.groupsPerBuffer_eq, same.groups_eq]
  rfl

end IsStateOf

end Tone

/-! ## Layout -/

/-- Whether a buffer of groups holds pairs: every pair of words of a group is the pair of the group, a word that is left
over is zero, and no word is larger than the full scale. -/
structure HoldsPairs (stride : Nat) (pairs : Nat → Int16 × Int16) (buffer : Array Int16) : Prop where
  size : buffer.size = stride * (dmaBufferWords / stride)
  pair : ∀ k < dmaBufferWords / stride, ∀ p < stride / 2,
    buffer[stride * k + 2 * p]? = some (pairs k).1 ∧ buffer[stride * k + 2 * p + 1]? = some (pairs k).2
  leftover : stride % 2 = 1 → ∀ k < dmaBufferWords / stride, buffer[stride * k + (stride - 1)]? = some 0
  small : ∀ word ∈ buffer, -2047 ≤ word.toInt ∧ word.toInt ≤ 2047

namespace Tone

variable {circle : Circle} {t : Tone}

theorem mem_group {phase : Float} {word : Int16} (mem : word ∈ t.group circle phase) :
    word = t.word (circle.cos phase) ∨ word = t.word (circle.sin phase) ∨ word = 0 := by
  rcases List.mem_append.1 mem with pair | odd
  · obtain ⟨words, same, inside⟩ := List.mem_flatten.1 pair
    rw [List.eq_of_mem_replicate same, List.mem_pair] at inside
    exact inside.elim .inl (.inr ∘ .inl)
  · exact .inr (.inr (List.eq_of_mem_replicate odd))

theorem small_of_mem_groups (bounded : circle.Bounded)
    (amplitude : InUnit t.amplitude) {word : Int16} {n : Nat} {phase : Float}
    (mem : word ∈ (t.groups circle n phase).1) : -2047 ≤ word.toInt ∧ word.toInt ≤ 2047 := by
  induction n generalizing phase with
  | zero => exact absurd mem List.not_mem_nil
  | succ n ih =>
    rcases List.mem_append.1 mem with first | later
    · rcases mem_group first with rfl | rfl | rfl
      · exact word_within amplitude (bounded.cos phase)
      · exact word_within amplitude (bounded.sin phase)
      · decide
    · exact ih later

/-- A buffer holds the pairs from its phase on. -/
theorem holdsPairs_bufferAt (bounded : circle.Bounded) (amplitude : InUnit t.amplitude) (phase : Float) :
    HoldsPairs t.stride (fun k => t.pairAt circle (t.advance^[k] phase)) (t.bufferAt circle phase) where
  size := by rw [bufferAt, List.size_toArray, length_groups, groupsPerBuffer]
  pair k inside p slot := by
    rw [bufferAt, groupsPerBuffer, List.getElem?_toArray, List.getElem?_toArray, Nat.add_assoc,
      getElem?_groups inside (by omega), getElem?_groups inside (by omega)]
    exact getElem?_group_pair slot
  leftover odd k inside := by
    rw [bufferAt, groupsPerBuffer, List.getElem?_toArray, getElem?_groups inside (by omega)]
    exact getElem?_group_odd odd
  small word mem := small_of_mem_groups bounded amplitude (List.mem_toArray.1 mem)

/-- Buffers one after the other are one run of groups. -/
theorem flatMap_groups (m n : Nat) (phase : Float) :
    ((List.range m).flatMap fun b => (t.groups circle n (t.advance^[n * b] phase)).1)
      = (t.groups circle (n * m) phase).1 := by
  induction m with
  | zero => rfl
  | succ m ih => rw [List.range_succ, List.flatMap_append, ih, Nat.mul_succ, groups_add, List.flatMap_singleton]

end Tone

/-- Whether buffers, one after the other, hold a sequence of pairs from its beginning on, and their samples are those of
the pairs. -/
structure Carries (stride : Nat) (pairs : Nat → Int16 × Int16) (buffers : List (Array Int16)) : Prop where
  holds : ∀ b buffer, buffers[b]? = some buffer →
    HoldsPairs stride (fun k => pairs (dmaBufferWords / stride * b + k)) buffer
  samples : ∀ scale, (buffers.flatMap fun b => ((Demux.ofStride stride scale).channels b).toList)
    = (List.range (dmaBufferWords / stride * buffers.length)).map fun k => .ofPair scale (pairs k)

/-- The buffers of a configuration one after the other. -/
def ToneConfig.buffers (circle : Circle) (c : ToneConfig) (n : Nat) : List (Array Int16) :=
  (List.range n).map fun b => c.generator.bufferAt circle (c.generator.advance^[c.generator.groupsPerBuffer * b] 0)

namespace ToneConfig

variable {circle : Circle} {c : ToneConfig}

@[simp] theorem length_buffers (n : Nat) : (c.buffers circle n).length = n := by
  rw [buffers, List.length_map, List.length_range]

theorem holdsPairs_buffers (bounded : circle.Bounded) {n b : Nat} {buffer : Array Int16}
    (mem : (c.buffers circle n)[b]? = some buffer) :
    HoldsPairs c.stride (fun k => c.pairs circle (dmaBufferWords / c.stride * b + k)) buffer := by
  simp only [buffers, List.getElem?_map, Option.map_eq_some_iff] at mem
  obtain ⟨b', place, rfl⟩ := mem
  obtain ⟨-, rfl⟩ := List.getElem?_eq_some_iff.1 place
  rw [List.getElem_range]
  have holds := c.generator.holdsPairs_bufferAt bounded (Tone.inUnit_clampUnit c.amplitude)
    (c.generator.advance^[c.generator.groupsPerBuffer * b] 0)
  simp only [← Function.iterate_add_apply, Nat.add_comm _ (_ * b)] at holds
  exact holds

/-- The samples of buffers are the pairs of the configuration. -/
theorem samples_buffers (two : 2 ≤ c.stride) (scale : Float32) (n : Nat) :
    ((c.buffers circle n).flatMap fun b => ((Demux.ofStride c.stride scale).channels b).toList)
      = (List.range (dmaBufferWords / c.stride * n)).map fun k => .ofPair scale (c.pairs circle k) := by
  have same : (Demux.ofStride c.stride scale).stride = c.stride := Nat.max_eq_left two
  have whole : ∀ words ∈ ((List.range n).map fun b => (c.generator.groups circle c.generator.groupsPerBuffer
      (c.generator.advance^[c.generator.groupsPerBuffer * b] 0)).1).dropLast, c.stride ∣ words.length := by
    intro words mem
    obtain ⟨b, -, rfl⟩ := List.mem_map.1 (List.dropLast_subset _ mem)
    rw [Tone.length_groups]
    exact Nat.dvd_mul_right _ _
  have joined : _ = samplesOf c.stride scale _ := samplesOf_flatten two whole
  rw [← List.flatMap_def, Tone.flatMap_groups, List.flatMap_map] at joined
  rw [buffers, List.flatMap_map]
  simp only [Demux.toList_channels, Demux.samples_eq, same, Tone.bufferAt]
  exact joined.trans (Tone.samplesOf_groups two scale _ 0)

theorem carries_buffers (bounded : circle.Bounded) (two : 2 ≤ c.stride) (n : Nat) :
    Carries c.stride (c.pairs circle) (c.buffers circle n) where
  holds _ _ := holdsPairs_buffers bounded
  samples scale := by rw [samples_buffers two, length_buffers]

end ToneConfig

/-! ## Calls -/

/-- A generator on a circle, and the time of its last call. -/
structure ToneRun where
  circle : Circle
  tone : Tone
  now : Nat

namespace ToneRun

/-- What a poll gives. -/
def answer (r : ToneRun) (wait : Nat) : Option (Array Int16) := (r.tone.pollOn r.circle (r.now + wait)).1

/-- The generator after a call. -/
def next (r : ToneRun) : ReplayCall → ToneRun
  | .start wait => { r with tone := r.tone.start (r.now + wait), now := r.now + wait }
  | .poll wait => { r with tone := (r.tone.pollOn r.circle (r.now + wait)).2, now := r.now + wait }
  | .stop wait => { r with tone := r.tone.stop, now := r.now + wait }

/-- The generator after calls in order. -/
def nextAll (r : ToneRun) (calls : List ReplayCall) : ToneRun := calls.foldl next r

/-- What polls give, one after the other. -/
def answers (r : ToneRun) : List Nat → List (Option (Array Int16))
  | [] => []
  | wait :: rest => r.answer wait :: (r.next (.poll wait)).answers rest

/-- A run of a generator, wherever it stands, whose clock has not run backwards. -/
structure Generates (r : ToneRun) (circle : Circle) (t : Tone) : Prop where
  circle : r.circle = circle
  same : r.tone.IsStateOf t
  period : r.tone.pacer.period = 0
  started : ∀ s ∈ r.tone.pacer.started, s ≤ r.now

/-- A generator that delivers, and its phase. -/
structure Stands (r : ToneRun) (phase : Float) : Prop where
  armed : r.tone.armed = true
  phase : r.tone.phase = phase

variable {r : ToneRun} {circle : Circle} {t : Tone} {phase : Float}

theorem generates_generator (circle : Circle) (c : ToneConfig) (now : Nat) :
    Generates ⟨circle, c.generator, now⟩ circle c.generator :=
  ⟨rfl, ⟨_, _, _, rfl⟩, rfl, by rintro s ⟨⟩⟩

theorem Stands.start (r : ToneRun) (wait : Nat) : (r.next (.start wait)).Stands 0 := ⟨rfl, rfl⟩

namespace Generates

theorem due (g : r.Generates circle t) (wait : Nat) : (r.tone.pacer.release (r.now + wait)).1 = true :=
  Pacer.release_of_period_eq_zero g.period fun s mem => Nat.le_trans (g.started s mem) (Nat.le_add_right _ _)

/-- No call changes what is generated. -/
theorem next (g : r.Generates circle t) (call : ReplayCall) : (r.next call).Generates circle t := by
  have before (wait : Nat) : ∀ s ∈ r.tone.pacer.started, s ≤ r.now + wait :=
    fun s mem => Nat.le_trans (g.started s mem) (Nat.le_add_right _ _)
  cases call with
  | start wait =>
    exact ⟨g.circle, g.same.moved 0 true (r.tone.pacer.restart (r.now + wait)), g.period, by
      rintro s ⟨⟩
      exact Nat.le_refl _⟩
  | stop wait => exact ⟨g.circle, g.same.moved r.tone.phase false r.tone.pacer, g.period, before wait⟩
  | poll wait =>
    by_cases on : r.tone.armed = true
    · obtain ⟨period, started⟩ := Replay.started_release (before wait)
      rw [ToneRun.next, Tone.pollOn_of_armed on (g.due wait)]
      exact ⟨g.circle, g.same.moved _ r.tone.armed _, period.trans g.period, started⟩
    · have quiet : r.tone.pollOn r.circle (r.now + wait) = (none, r.tone) := by
        rw [Tone.pollOn, Bool.eq_false_iff.2 on]
        rfl
      rw [ToneRun.next, quiet]
      exact ⟨g.circle, g.same, g.period, before wait⟩

theorem nextAll (g : r.Generates circle t) (calls : List ReplayCall) : (r.nextAll calls).Generates circle t := by
  induction calls generalizing r with
  | nil => exact g
  | cons call rest ih => exact ih (g.next call)

/-- A poll gives the next buffer, and the phase moves on by its groups. -/
theorem poll (g : r.Generates circle t) (s : r.Stands phase) (wait : Nat) :
    r.answer wait = some (t.bufferAt circle phase)
      ∧ (r.next (.poll wait)).Stands (t.advance^[t.groupsPerBuffer] phase) := by
  have poll : r.tone.pollOn r.circle (r.now + wait) = _ := Tone.pollOn_of_armed s.armed (g.due wait)
  rw [s.phase, g.circle, g.same.bufferAt_eq] at poll
  rw [answer, ToneRun.next, g.circle, poll]
  exact ⟨rfl, s.armed, by rw [g.same.advance_eq, g.same.groupsPerBuffer_eq]⟩

/-- Polls give one buffer after the other. -/
theorem answers_of_stands (g : r.Generates circle t) (s : r.Stands phase) (waits : List Nat) : r.answers waits
    = (List.range waits.length).map fun b => some (t.bufferAt circle (t.advance^[t.groupsPerBuffer * b] phase)) := by
  induction waits generalizing r phase with
  | nil => rfl
  | cons wait rest ih =>
    obtain ⟨delivered, stands⟩ := g.poll s wait
    rw [answers, List.length_cons, List.range_succ_eq_map, List.map_cons, List.map_map, delivered,
      ih (g.next (.poll wait)) stands]
    congr 1
    -- The later buffers stand one buffer further from the phase.
    refine List.map_congr_left fun b _ => ?_
    rw [Function.comp, Nat.mul_succ, Function.iterate_add_apply]

/-- After a start the tone begins again, whatever the calls before. -/
theorem answers_start (g : r.Generates circle t) (history : List ReplayCall) (wait : Nat) (waits : List Nat) :
    ((r.nextAll history).next (.start wait)).answers waits
      = (List.range waits.length).map fun b => some (t.bufferAt circle (t.advance^[t.groupsPerBuffer * b] 0)) :=
  ((g.nextAll history).next (.start wait)).answers_of_stands (.start _ wait) waits

end Generates

end ToneRun

/-- **The tone does not depend on the stride.** Whatever the calls before, the buffers after a start carry the pairs of
the configuration from the first one on, for every stride that groups can have. -/
theorem tone_same_for_all_strides (circle : Circle) (bounded : circle.Bounded) (c : ToneConfig)
    (accepted : ∃ t, Tone.open? c false = .ok t) :
    ∀ stride, 2 ≤ stride → ∃ t, Tone.open? { c with stride } false = .ok t ∧
      ∀ now history wait waits, ∃ buffers : List (Array Int16), buffers.length = waits.length
        ∧ (((ToneRun.mk circle t now).nextAll history).next (.start wait)).answers waits = buffers.map some
        ∧ Carries stride (c.pairs circle) buffers := by
  intro stride two
  obtain ⟨_, opened⟩ := accepted
  obtain ⟨-, rate, -⟩ := Tone.open?_eq_ok_iff.1 opened
  refine ⟨_, Tone.open?_eq_ok_iff.2 ⟨two, rate, rfl⟩, fun now history wait waits => ?_⟩
  have generates := ToneRun.generates_generator circle { c with stride } now
  refine ⟨ToneConfig.buffers circle { c with stride } waits.length, ToneConfig.length_buffers _, ?_, ?_⟩
  · rw [generates.answers_start, ToneConfig.buffers, List.map_map]
    rfl
  · rw [← ToneConfig.pairs_stride circle c stride]
    exact ToneConfig.carries_buffers (c := { c with stride }) bounded two waits.length

/-- The coordinates at whole quarters of a turn, as they are computed there, and in between those of the nearest one. -/
def Circle.quarters : Circle where
  cos x := if x < 0.75 then 1 else if x < 2.25 then 6.123233995736766e-17 else if x < 4 then -1
    else -1.8369701987210297e-16
  sin x := if x < 0.75 then 0 else if x < 2.25 then 1 else if x < 4 then 1.2246467991473532e-16 else -1

theorem Circle.bounded_quarters : Circle.quarters.Bounded := by
  constructor <;> intro x <;> right <;> simp only [quarters] <;> split_ifs <;> decide +kernel

/-- A tone with four samples in a turn. -/
def ToneConfig.quarterTurns : ToneConfig := { frequency := 1, sampleRate := 4, amplitude := 1, stride := 2 }

/-- Three groups in a buffer: three quarters of a turn. -/
theorem tone_same_for_quarterTurns : Circle.quarters.Bounded ∧ (∃ t, Tone.open? .quarterTurns false = .ok t)
    ∧ ∃ t, Tone.open? { ToneConfig.quarterTurns with stride := 1365 } false = .ok t ∧
      ∀ history, ∃ buffer : Array Int16,
        (((ToneRun.mk .quarters t 0).nextAll history).next (.start 0)).answers [0] = [some buffer]
        ∧ ((Demux.ofStride 1365 2047).channels buffer).toList
          = [.ofPair 2047 (2047, 0), .ofPair 2047 (0, 2047), .ofPair 2047 (-2047, 0)] := by
  have accepted : ∃ t, Tone.open? .quarterTurns false = .ok t :=
    ⟨_, Tone.open?_eq_ok_iff.2 ⟨by decide, by decide +kernel, rfl⟩⟩
  refine ⟨Circle.bounded_quarters, accepted, ?_⟩
  obtain ⟨t, opened, delivers⟩ :=
    tone_same_for_all_strides .quarters Circle.bounded_quarters .quarterTurns accepted 1365 (by decide)
  refine ⟨t, opened, fun history => ?_⟩
  obtain ⟨buffers, length, answers, carries⟩ := delivers 0 history 0 [0]
  obtain ⟨buffer, rfl⟩ := List.length_eq_one_iff.1 length
  have samples := carries.samples 2047
  rw [List.flatMap_singleton] at samples
  have turns : (List.range 3).map (ToneConfig.quarterTurns.pairs .quarters) = [(2047, 0), (0, 2047), (-2047, 0)] := by
    decide +kernel
  have scaled := congrArg (List.map (Sample.ofPair 2047)) turns
  rw [List.map_map] at scaled
  exact ⟨buffer, answers, samples.trans scaled⟩

end Panadapter
