import Mathlib.Data.List.SplitBy
import Panadapter.Spectrum.Processor

/-!
# What a spectral processor remembers

A processor keeps the plan of its last transform and works on the same vectors from call to call. None of this shows in
what it computes, as long as the transform does not depend on what stands in its scratch.

* A plan at hand is always the one that the planner has for its length (`SpectralProcessor.PlannedBy`).
* The plan and the count of plans follow the lengths of the calls that succeeded (`SpectralProcessor.Follows.compute`).
* Hence, after any calls, a processor computes what one does that has just been made (`computes_as_fresh`).
-/

namespace Panadapter

/-- What a transform makes of a full buffer does not depend on what stands in the scratch. -/
def Planner.IgnoresScratch (planner : Planner) : Prop :=
  ∀ (length : FftLength) (buffer scratch scratch' : Array Sample), buffer.size = length.points →
    scratch.size = (planner.plan length).scratchLength → scratch'.size = (planner.plan length).scratchLength →
      ((planner.plan length).process buffer scratch).1 = ((planner.plan length).process buffer scratch').1

theorem Planner.ignoresScratch_ofRoots : ofRoots.IgnoresScratch := fun _ _ _ _ _ _ _ => rfl

namespace SpectralProcessor

/-- A processor whose plan, if it has one, is the one that the planner has for its length. -/
def PlannedBy (planner : Planner) (p : SpectralProcessor) : Prop :=
  ∀ plan, p.plan = some plan → plan = planner.plan plan.length

variable {planner : Planner} {p : SpectralProcessor} {length : FftLength} {window : Channels} {plan : Plan}

theorem plannedBy_fresh : fresh.PlannedBy planner := nofun

namespace Transforms

theorem plan_eq (t : p.Transforms planner length window plan) (h : p.PlannedBy planner) :
    plan = planner.plan length := by
  rcases t.origin with at_hand | new
  · rw [h plan at_hand, t.length_eq]
  · exact new

theorem plannedBy (t : p.Transforms planner length window plan) (h : p.PlannedBy planner) :
    (p.compute planner window).2.PlannedBy planner := by
  intro plan' kept
  rw [t.kept] at kept
  cases kept
  rw [t.length_eq]
  exact t.plan_eq h

/-- The bins are those of a transform beside an empty scratch. -/
theorem answer_eq (t : p.Transforms planner length window plan) (h : p.PlannedBy planner)
    (ignores : planner.IgnoresScratch) (size : window.size = length.points) :
    (p.compute planner window).1 = .ok ((planner.plan length).spectrum window) := by
  have planned := t.plan_eq h
  have scratch := (p.ensurePlan planner length).size_scratch plan t.ready
  rw [planned] at scratch
  have same := ignores length window.zip _ (zeroSamples (planner.plan length).scratchLength)
    (by rw [Channels.size_zip, size]) scratch Array.size_replicate
  rw [t.answer, planned, Plan.spectrum, Plan.spectrumBy, Plan.spectrumBy, same]

end Transforms

/-! ## Calls one after the other -/

/-- The length of a window whose bins are computed. -/
def lengthOf? (planner : Planner) (p : SpectralProcessor) (window : Channels) : Option Nat :=
  match (p.compute planner window).1 with
  | .ok _ => some window.i.size
  | .error _ => none

/-- The processor after calls in order. -/
def computeAll (planner : Planner) (p : SpectralProcessor) (calls : List Channels) : SpectralProcessor :=
  calls.foldl (fun p window => (p.compute planner window).2) p

/-- The lengths of the calls that succeed, in order. -/
def lengthsOf (planner : Planner) : SpectralProcessor → List Channels → List Nat
  | _, [] => []
  | p, window :: rest => (p.lengthOf? planner window).toList ++ lengthsOf planner (p.compute planner window).2 rest

/-- A window is refused for one of two reasons, or it has a length of the menu. -/
theorem refused_or_listed (window : Channels) : window.i.size ≠ window.q.size
    ∨ (window.i.size = window.q.size ∧ ∀ length : FftLength, length.points ≠ window.i.size)
    ∨ ∃ length : FftLength, window.i.size = length.points ∧ window.q.size = length.points := by
  by_cases same : window.i.size = window.q.size
  · by_cases listed : ∃ length : FftLength, length.points = window.i.size
    · obtain ⟨length, points⟩ := listed
      exact .inr (.inr ⟨length, points.symm, same.symm.trans points.symm⟩)
    · exact .inr (.inl ⟨same, not_exists.1 listed⟩)
  · exact .inl same

/-- A call that fails changes nothing. -/
theorem compute_failed {e : SpectrumError} (failed : (p.compute planner window).1 = .error e) :
    (p.compute planner window).2 = p := by
  rcases refused_or_listed window with uneven | ⟨same, unlisted⟩ | ⟨length, i, q⟩
  · rw [compute_of_ne planner p uneven]
  · rw [compute_of_unlisted planner p same unlisted]
  · obtain ⟨plan, t⟩ := p.transforms_of_size planner i q
    rw [t.answer] at failed
    cases failed

/-! ## Runs of equal lengths -/

/-- The same length once more makes the last run longer. -/
theorem splitBy_concat_of_same {lengths : List Nat} {n : Nat} (last : lengths.getLast? = some n) :
    ∃ before run, lengths.splitBy (· == ·) = before ++ [run]
      ∧ (lengths ++ [n]).splitBy (· == ·) = before ++ [run ++ [n]] := by
  have some_runs : lengths.splitBy (· == ·) ≠ [] := by
    rw [List.splitBy_ne_nil]
    rintro rfl
    cases last
  obtain ⟨before, run, split⟩ := (List.eq_nil_or_concat' _).resolve_left some_runs
  obtain ⟨whole, inhabited, equal, apart⟩ := List.splitBy_eq_iff.1 split
  simp only [List.mem_append, List.mem_singleton, not_or] at inhabited
  have ends : n ∈ run.getLast? := by
    rw [whole, List.flatten_concat, List.getLast?_append_of_ne_nil _ (Ne.symm inhabited.2)] at last
    exact last
  refine ⟨before, run, split, List.splitBy_eq_iff.2 ⟨?_, ?_, ?_, ?_⟩⟩
  · simp [whole]
  · simpa using inhabited.1
  · intro r mem
    rcases List.mem_append.1 mem with mem | mem
    · exact equal r (List.mem_append_left _ mem)
    · rw [List.mem_singleton.1 mem, List.isChain_append]
      refine ⟨equal run (by simp), List.isChain_singleton n, ?_⟩
      rintro x final y ⟨⟩
      rw [Option.mem_unique final ends]
      exact beq_self_eq_true n
  · rw [List.isChain_append] at apart ⊢
    refine ⟨apart.1, List.isChain_singleton _, ?_⟩
    rintro x final y ⟨⟩
    obtain ⟨some_x, some_run, differ⟩ := apart.2.2 x final run rfl
    exact ⟨some_x, by simp, by rwa [List.head_append_of_ne_nil some_run]⟩

/-- One more length begins a run unless it is the same as the last. -/
theorem length_splitBy_concat (lengths : List Nat) (n : Nat) :
    ((lengths ++ [n]).splitBy (· == ·)).length
      = (lengths.splitBy (· == ·)).length + if lengths.getLast? = some n then 0 else 1 := by
  split
  · rename_i last
    obtain ⟨before, run, old, new⟩ := splitBy_concat_of_same last
    rw [old, new, List.length_append, List.length_append]
    rfl
  · rename_i other
    have differ : ∀ x ∈ lengths.getLast?, (x == n) = false := by
      rintro x last
      exact beq_eq_false_iff_ne.2 fun same => other (same ▸ last)
    rw [List.splitBy_append_cons [] differ, List.length_append]
    rfl

/-- A processor whose plan has the last length of a list, and which has made a plan for every run of equal lengths in
it. -/
structure Follows (planner : Planner) (p : SpectralProcessor) (lengths : List Nat) : Prop where
  planned : p.PlannedBy planner
  planLength : p.planLength = lengths.getLast?
  plansBuilt : p.plansBuilt = (lengths.splitBy (· == ·)).length

theorem follows_fresh : fresh.Follows planner [] := ⟨plannedBy_fresh, rfl, rfl⟩

namespace Follows

variable {lengths : List Nat}

/-- A call adds its length if it succeeds. -/
theorem compute (f : p.Follows planner lengths) (window : Channels) :
    (p.compute planner window).2.Follows planner (lengths ++ (p.lengthOf? planner window).toList) := by
  cases answer : (p.compute planner window).1 with
  | error e =>
    rw [compute_failed answer, lengthOf?, answer]
    simpa using f
  | ok magnitudes =>
    rcases refused_or_listed window with uneven | ⟨same, unlisted⟩ | ⟨length, i, q⟩
    · rw [compute_of_ne planner p uneven] at answer
      cases answer
    · rw [compute_of_unlisted planner p same unlisted] at answer
      cases answer
    · obtain ⟨plan, t⟩ := p.transforms_of_size planner i q
      have named : (p.lengthOf? planner window).toList = [length.points] := by
        rw [lengthOf?, answer, i]
        rfl
      have ended : (lengths ++ [length.points]).getLast? = some length.points := List.getLast?_concat
      rw [named]
      refine ⟨t.plannedBy f.planned, ?_, ?_⟩
      · rw [SpectralProcessor.planLength, t.kept, Option.map_some, t.length_eq, ended]
      · rw [t.built, ensurePlan, f.planLength, length_splitBy_concat, ← f.plansBuilt]
        split <;> rfl

theorem computeAll (f : p.Follows planner lengths) (calls : List Channels) :
    (p.computeAll planner calls).Follows planner (lengths ++ p.lengthsOf planner calls) := by
  induction calls generalizing p lengths with
  | nil =>
    rw [lengthsOf, List.append_nil]
    exact f
  | cons window rest ih =>
    rw [lengthsOf, ← List.append_assoc]
    exact ih (f.compute window)

/-- What is computed is what a new processor computes. -/
theorem answer_eq (f : p.Follows planner lengths) (ignores : planner.IgnoresScratch) (window : Channels) :
    (p.compute planner window).1 = (fresh.compute planner window).1 := by
  rcases refused_or_listed window with uneven | ⟨same, unlisted⟩ | ⟨length, i, q⟩
  · rw [compute_of_ne planner p uneven, compute_of_ne planner fresh uneven]
  · rw [compute_of_unlisted planner p same unlisted, compute_of_unlisted planner fresh same unlisted]
  · have size : window.size = length.points := by rw [Channels.size, i, q, Nat.min_self]
    obtain ⟨_, t⟩ := p.transforms_of_size planner i q
    obtain ⟨_, t'⟩ := fresh.transforms_of_size planner i q
    rw [t.answer_eq f.planned ignores size, t'.answer_eq plannedBy_fresh ignores size]

end Follows

end SpectralProcessor

/-- **A processor computes what a new one does.** After any calls, the next one gives exactly what a processor gives that
has just been made. The plan at hand has the length of the last call that succeeded, and a plan has been made for every
run of equal lengths among those. A call fails for channels of different lengths, and else for a length that is not on
the menu, and changes nothing then. -/
theorem computes_as_fresh (planner : Planner) (ignores : planner.IgnoresScratch) (calls : List Channels)
    (next : Channels) :
    let p := SpectralProcessor.fresh.computeAll planner calls
    let lengths := SpectralProcessor.fresh.lengthsOf planner calls
    (p.compute planner next).1 = (SpectralProcessor.fresh.compute planner next).1
      ∧ p.planLength = lengths.getLast?
      ∧ p.plansBuilt = (lengths.splitBy (· == ·)).length
      ∧ (∀ e, (p.compute planner next).1 = .error e → (p.compute planner next).2 = p)
      ∧ (next.i.size ≠ next.q.size →
        (p.compute planner next).1 = .error (.lengthMismatch next.i.size next.q.size))
      ∧ (next.i.size = next.q.size → (∀ length : FftLength, length.points ≠ next.i.size) →
        (p.compute planner next).1 = .error (.unsupportedLength next.i.size))
      ∧ (next.i.size = next.q.size → (∃ length : FftLength, length.points = next.i.size) →
        ∃ magnitudes, (p.compute planner next).1 = .ok magnitudes) := by
  intro p lengths
  have f : p.Follows planner lengths := SpectralProcessor.follows_fresh.computeAll calls
  refine ⟨f.answer_eq ignores next, f.planLength, f.plansBuilt, fun e => SpectralProcessor.compute_failed, ?_, ?_, ?_⟩
  · intro uneven
    rw [p.compute_of_ne planner uneven]
  · intro same unlisted
    rw [p.compute_of_unlisted planner same unlisted]
  · rintro same ⟨length, points⟩
    obtain ⟨plan, t⟩ := p.transforms_of_size planner points.symm (same.symm.trans points.symm)
    exact ⟨_, t.answer⟩

/-! ## Lengths in turn -/

namespace SpectralProcessor

/-- Two windows of a length, with calls that fail between them, and one of another. -/
def switching : List Channels :=
  [.zeros 256, ⟨(Channels.zeros 128).i, (Channels.zeros 64).q⟩, .zeros 100, .zeros 256, .zeros 128]

end SpectralProcessor

theorem computes_as_fresh_switching :
    let p := SpectralProcessor.fresh.computeAll .ofRoots SpectralProcessor.switching
    Planner.ofRoots.IgnoresScratch ∧ p.planLength = some 128 ∧ p.plansBuilt = 2
      ∧ (p.compute .ofRoots (.zeros 256)).1 = (SpectralProcessor.fresh.compute .ofRoots (.zeros 256)).1 := by
  intro p
  have lengths : SpectralProcessor.fresh.lengthsOf .ofRoots SpectralProcessor.switching = [256, 256, 128] := by
    decide +kernel
  obtain ⟨answer, planLength, plansBuilt, -⟩ :=
    computes_as_fresh .ofRoots Planner.ignoresScratch_ofRoots SpectralProcessor.switching (.zeros 256)
  rw [lengths] at planLength plansBuilt
  exact ⟨Planner.ignoresScratch_ofRoots, planLength, plansBuilt, answer⟩

end Panadapter
