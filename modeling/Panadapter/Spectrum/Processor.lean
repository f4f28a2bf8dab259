import Panadapter.Spectrum.Plan

/-! # Magnitudes and peaks

* `magnitudes?`: the magnitude of every sample, for streams whose samples are bins already.
* `SpectralProcessor.compute`: the magnitudes of the bins of a window. The processor keeps one plan, that of the last
  length, with the vectors that it works on, and counts how many plans it has made.
* `SpectralProcessor.Transforms`: what a call does to a window of a length.
* `peak?`: the largest value and where it stands.
-/

namespace Panadapter

/-- The magnitudes of samples, refused when the two channels differ in length. -/
def magnitudes? (window : Channels) : Except SpectrumError (Array Float32) :=
  if window.i.size = window.q.size then .ok (Array.zipWith magnitude window.i window.q)
  else .error (.lengthMismatch window.i.size window.q.size)

/-- The index and the value of a largest element: a value takes the lead unless the leader is at least as large. -/
def peak? (values : Array Float32) : Option (Nat × Float32) :=
  values.zipIdx.foldl
    (fun best (v, k) =>
      match best with
      | some (_, b) => if b ≥ v then best else some (k, v)
      | none => some (k, v))
    none

/-- New values written over the beginning of a vector, as many as there are and as it has room for. -/
def overlay {α : Type} (old new : Array α) : Array α := new.extract 0 old.size ++ old.extract new.size

@[simp] theorem size_overlay {α : Type} (old new : Array α) : (overlay old new).size = old.size := by
  simp only [overlay, Array.size_append, Array.size_extract]
  omega

/-- Nothing old is left under as many new values. -/
theorem overlay_of_size {α : Type} {old new : Array α} (h : new.size = old.size) : overlay old new = new := by
  simp [overlay, ← h]

/-- The plan of the last transform with the vectors it works on: the buffer that it transforms, its scratch, and the
magnitudes of the bins; and the count of plans made. The vectors have the lengths that the plan needs. -/
structure SpectralProcessor where
  plan : Option Plan
  buffer : Array Sample
  scratch : Array Sample
  magnitudes : Array Float32
  plansBuilt : Nat
  size_buffer : ∀ p ∈ plan, buffer.size = p.length.points
  size_scratch : ∀ p ∈ plan, scratch.size = p.scratchLength
  size_magnitudes : ∀ p ∈ plan, magnitudes.size = p.length.points

namespace SpectralProcessor

/-- A processor that has not made a plan. -/
def fresh : SpectralProcessor := ⟨none, #[], #[], #[], 0, nofun, nofun, nofun⟩

/-- The count of points of the plan at hand. -/
def planLength (p : SpectralProcessor) : Option Nat := p.plan.map fun plan => plan.length.points

/-- A processor with a new plan in the place of the one at hand, and new vectors for it. -/
def withPlan (p : SpectralProcessor) (plan : Plan) : SpectralProcessor where
  plan := some plan
  buffer := zeroSamples plan.length.points
  scratch := zeroSamples plan.scratchLength
  magnitudes := Array.replicate plan.length.points 0
  plansBuilt := p.plansBuilt + 1
  size_buffer := by rintro _ ⟨⟩; exact Array.size_replicate
  size_scratch := by rintro _ ⟨⟩; exact Array.size_replicate
  size_magnitudes := by rintro _ ⟨⟩; exact Array.size_replicate

/-- The processor with a plan of a length at hand, made anew only if another length was used last. -/
def ensurePlan (planner : Planner) (length : FftLength) (p : SpectralProcessor) : SpectralProcessor :=
  if p.planLength = some length.points then p else p.withPlan (planner.plan length)

/-- The samples of a window written on the buffer. -/
def load (window : Channels) (p : SpectralProcessor) : SpectralProcessor :=
  { p with
    buffer := overlay p.buffer window.zip
    size_buffer := by rw [size_overlay]; exact p.size_buffer }

/-- The buffer transformed by the plan, if there is one. -/
def transform (p : SpectralProcessor) : SpectralProcessor :=
  match p.plan with
  | none => p
  | some plan =>
    { p with
      buffer := (plan.process p.buffer p.scratch).1
      scratch := (plan.process p.buffer p.scratch).2
      size_buffer := by rw [(plan.size_process _ _).1]; exact p.size_buffer
      size_scratch := by rw [(plan.size_process _ _).2]; exact p.size_scratch }

/-- The magnitudes of what stands on the buffer. -/
def measure (p : SpectralProcessor) : SpectralProcessor :=
  { p with
    magnitudes := overlay p.magnitudes (p.buffer.map Sample.magnitude)
    size_magnitudes := by rw [size_overlay]; exact p.size_magnitudes }

/-- A window of a length worked through, with the magnitudes of its bins in the end. -/
def work (planner : Planner) (length : FftLength) (window : Channels) (p : SpectralProcessor) : SpectralProcessor :=
  ((p.ensurePlan planner length).load window).transform.measure

/-- The magnitudes of the bins of a window, or what is wrong with it, and the processor afterwards. Channels of
different lengths are refused first, then a length that is not on the menu. -/
def compute (planner : Planner) (p : SpectralProcessor) (window : Channels) :
    Except SpectrumError (Array Float32) × SpectralProcessor :=
  if window.i.size = window.q.size then
    match FftLength.ofPoints? window.i.size with
    | .error e => (.error e, p)
    | .ok length =>
      let p := p.work planner length window
      (.ok p.magnitudes, p)
  else (.error (.lengthMismatch window.i.size window.q.size), p)

/-- The same in one answer: the magnitudes and the processor afterwards, or what is wrong with the window. Plans come
from the transform at hand unless a planner is given. -/
def compute? (p : SpectralProcessor) (window : Channels) (planner : Planner := .ofRoots) :
    Except SpectrumError (Array Float32 × SpectralProcessor) :=
  match p.compute planner window with
  | (.ok magnitudes, p) => .ok (magnitudes, p)
  | (.error e, _) => .error e

/-! ## What a call does -/

section

variable (planner : Planner) (p : SpectralProcessor) {plan : Plan} {length : FftLength} {window : Channels}

/-- There is a plan of the length now: the one that was at hand, or a new one. -/
theorem plan_ensurePlan (length : FftLength) : ∃ plan, (p.ensurePlan planner length).plan = some plan
    ∧ plan.length = length ∧ (p.plan = some plan ∨ plan = planner.plan length) := by
  unfold ensurePlan
  split
  · rename_i same
    obtain ⟨plan, at_hand, points⟩ := Option.map_eq_some_iff.1 same
    exact ⟨plan, at_hand, FftLength.points_injective points, .inl at_hand⟩
  · exact ⟨planner.plan length, rfl, planner.length_plan length, .inr rfl⟩

variable {p}

theorem transform_of_plan (at_hand : p.plan = some plan) : p.transform.plan = some plan
    ∧ p.transform.buffer = (plan.process p.buffer p.scratch).1 ∧ p.transform.magnitudes = p.magnitudes
    ∧ p.transform.plansBuilt = p.plansBuilt := by
  simp [transform, at_hand]

/-- The plan at hand is put to a window of its length: nothing that stood on the vectors before is left, but for the
scratch. -/
theorem measure_transform_load (at_hand : p.plan = some plan) (size : window.size = plan.length.points) :
    (p.load window).transform.measure.magnitudes = plan.spectrumBy p.scratch window
      ∧ (p.load window).transform.measure.plan = some plan
      ∧ (p.load window).transform.measure.plansBuilt = p.plansBuilt := by
  have loaded : (p.load window).buffer = window.zip :=
    overlay_of_size (by rw [Channels.size_zip, size, p.size_buffer plan at_hand])
  obtain ⟨kept, transformed, old, built⟩ := transform_of_plan (p := p.load window) at_hand
  have bins : (p.load window).transform.buffer = (plan.process window.zip p.scratch).1 := by
    rw [transformed, loaded]
    rfl
  refine ⟨?_, kept, built⟩
  show overlay (p.load window).transform.magnitudes _ = _
  rw [bins, Plan.spectrumBy]
  refine overlay_of_size ?_
  rw [Array.size_map, (plan.size_process _ _).1, Channels.size_zip, size, old]
  exact (p.size_magnitudes plan at_hand).symm

/-- What a call does to a window of a length: it has a plan of that length ready, which was at hand or is new, and the
plan computes the bins and stays. -/
structure Transforms (planner : Planner) (p : SpectralProcessor) (length : FftLength) (window : Channels) (plan : Plan) :
    Prop where
  ready : (p.ensurePlan planner length).plan = some plan
  length_eq : plan.length = length
  origin : p.plan = some plan ∨ plan = planner.plan length
  answer : (p.compute planner window).1 = .ok (plan.spectrumBy (p.ensurePlan planner length).scratch window)
  kept : (p.compute planner window).2.plan = some plan
  built : (p.compute planner window).2.plansBuilt = (p.ensurePlan planner length).plansBuilt

variable (p)

/-- A window of a length is not refused. -/
theorem transforms_of_size (i : window.i.size = length.points) (q : window.q.size = length.points) :
    ∃ plan, p.Transforms planner length window plan := by
  obtain ⟨plan, ready, length_eq, origin⟩ := p.plan_ensurePlan planner length
  have size : window.size = plan.length.points := by rw [Channels.size, i, q, Nat.min_self, length_eq]
  obtain ⟨magnitudes, kept, built⟩ := measure_transform_load ready size
  have computed : p.compute planner window
      = (.ok (p.work planner length window).magnitudes, p.work planner length window) := by
    rw [compute, if_pos (i.trans q.symm), i, FftLength.ofPoints?_points]
  refine ⟨plan, ready, length_eq, origin, ?_, ?_, ?_⟩
  · rw [computed]
    exact congrArg Except.ok magnitudes
  · rw [computed]
    exact kept
  · rw [computed]
    exact built

/-- Channels of different lengths are refused, and nothing changes. -/
theorem compute_of_ne (h : window.i.size ≠ window.q.size) :
    p.compute planner window = (.error (.lengthMismatch window.i.size window.q.size), p) := if_neg h

/-- A length that is not on the menu is refused, and nothing changes. -/
theorem compute_of_unlisted (same : window.i.size = window.q.size)
    (unlisted : ∀ length : FftLength, length.points ≠ window.i.size) :
    p.compute planner window = (.error (.unsupportedLength window.i.size), p) := by
  rw [compute, if_pos same, FftLength.ofPoints?_of_unlisted unlisted]

variable {planner p}

/-- A call that is not refused. -/
theorem compute?_of_ok {magnitudes : Array Float32} (h : (p.compute planner window).1 = .ok magnitudes) :
    p.compute? window planner = .ok (magnitudes, (p.compute planner window).2) := by
  unfold compute?
  split
  · rename_i answer
    rw [answer] at h ⊢
    cases h
    rfl
  · rename_i answer
    rw [answer] at h
    cases h

variable (planner p)

/-- A window of a length has a spectrum of that length. -/
theorem compute?_of_size (i : window.i.size = length.points) (q : window.q.size = length.points) :
    ∃ spectrum after, p.compute? window planner = .ok (spectrum, after) ∧ spectrum.size = length.points
      ∧ after.planLength = some length.points := by
  obtain ⟨plan, t⟩ := p.transforms_of_size planner i q
  refine ⟨_, _, compute?_of_ok t.answer, ?_, ?_⟩
  · rw [Plan.size_spectrumBy, Channels.size, i, q, Nat.min_self]
  · rw [planLength, t.kept, Option.map_some, t.length_eq]

end

end SpectralProcessor

end Panadapter
