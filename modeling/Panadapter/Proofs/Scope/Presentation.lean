import Mathlib.Order.Bounds.Basic
import Panadapter.Proofs.Scope.Separation

/-!
# The frames of a run

A run of the scope is over when the limit of frames is reached or somebody has asked to quit, and it looks for that only
before a frame. So a turn in which somebody asks to quit is still shown, and all of its commands are applied.

* What a turn does to the count of the frames, to the wish to quit and to the names (`Scope.turn_keeps`).
* `Scope.turnsMade`: how many turns of a run are made, up to the least number at which the run is over
  (`Scope.turnsMade_eq`).
* `Scope.runLeaving`: a run with the moments that it leaves. It shows the turns made, leaves the scope as they do, and
  takes nothing from what comes later (`Scope.run_eq`, `Scope.runLeaving_eq`).
-/

namespace Panadapter

namespace Scope

variable (s : Scope)

/-! ## One turn -/

/-- An input counts no frame and renames no view, and nothing but one command asks to quit. -/
theorem receive_keeps (input : ScopeInput) : (s.receive input).frames = s.frames
    ∧ ((s.receive input).quit = true ↔ s.quit = true ∨ input = .command .quit)
    ∧ (s.receive input).views.map StreamView.name = s.views.map StreamView.name := by
  have changed : ∀ (stream : String) (e : DisplayEvent),
      (s.changeView stream (·.next e)).views.map StreamView.name = s.views.map StreamView.name := by
    intro stream e
    rw [changeView]
    cases found : changeFirst stream (·.next e) s.views with
    | none => rfl
    | some views => exact names_changeFirst (fun v => v.name_next e) found
  cases input with
  | write stream w => exact ⟨rfl, by simp [receive, changeView], changed stream (.write w)⟩
  | command c =>
    cases c with
    | quit => exact ⟨rfl, by simp [receive, applyLogged, apply], rfl⟩
    | change stream c =>
      rw [receive, snd_applyLogged_change]
      exact ⟨rfl, by simp [changeView], changed stream (.command c)⟩

theorem receiveAll_keeps (inputs : List ScopeInput) : (s.receiveAll inputs).frames = s.frames
    ∧ ((s.receiveAll inputs).quit = true ↔ s.quit = true ∨ .command .quit ∈ inputs)
    ∧ (s.receiveAll inputs).views.map StreamView.name = s.views.map StreamView.name := by
  induction inputs generalizing s with
  | nil => exact ⟨rfl, by simp [receiveAll], rfl⟩
  | cons input rest ih =>
    obtain ⟨frames, quit, names⟩ := s.receive_keeps input
    obtain ⟨frames', quit', names'⟩ := ih (s.receive input)
    refine ⟨frames'.trans frames, quit'.trans ?_, names'.trans names⟩
    rw [quit, List.mem_cons, or_assoc, eq_comm (a := input)]

/-- Somebody asks to quit in a turn. -/
def Turn.AsksToQuit (t : Turn) : Prop := .command .quit ∈ t.before ++ t.after

/-- A turn counts one frame. -/
theorem turn_keeps (t : Turn) : (s.turn t).frames = s.frames + 1
    ∧ ((s.turn t).quit = true ↔ s.quit = true ∨ t.AsksToQuit)
    ∧ (s.turn t).views.map StreamView.name = s.views.map StreamView.name := by
  obtain ⟨-, quit, names⟩ := s.receiveAll_keeps t.before
  obtain ⟨-, quit', names'⟩ := (s.receiveAll t.before).updateAll.receiveAll_keeps t.after
  have updated : (s.receiveAll t.before).updateAll.views.map StreamView.name
      = (s.receiveAll t.before).views.map StreamView.name := by
    rw [updateAll, List.map_map]
    exact List.map_congr_left fun v _ => v.name_next .update
  refine ⟨rfl, quit'.trans ?_, names'.trans (updated.trans names)⟩
  rw [Turn.AsksToQuit, List.mem_append, ← or_assoc]
  exact or_congr quit Iff.rfl

/-- A turn in which workers write, and then commands come. -/
def Turn.Brings (t : Turn) (pending : List ScopeCommand) : Prop :=
  ∃ writes : List ScopeInput, (∀ i ∈ writes, ∃ stream w, i = .write stream w)
    ∧ t = ⟨writes ++ pending.map .command, []⟩

theorem Turn.brings_ofPending (pending : List ScopeCommand) : (ofPending pending).Brings pending :=
  ⟨[], nofun, rfl⟩

/-- Somebody asks to quit by one of these commands. -/
theorem Turn.Brings.asksToQuit_iff {t : Turn} {pending : List ScopeCommand} (brings : t.Brings pending) :
    t.AsksToQuit ↔ .quit ∈ pending := by
  obtain ⟨writes, only, rfl⟩ := brings
  have silent : .command .quit ∉ writes := fun member => by
    obtain ⟨stream, w, same⟩ := only _ member
    cases same
  simp [AsksToQuit, silent]

/-! ## Turns in order -/

/-- The scope after turns in order. -/
def afterTurns (turns : List Turn) : Scope := turns.foldl turn s

theorem afterTurns_keeps (turns : List Turn) : (s.afterTurns turns).frames = s.frames + turns.length
    ∧ ((s.afterTurns turns).quit = true ↔ s.quit = true ∨ ∃ t ∈ turns, t.AsksToQuit) := by
  induction turns generalizing s with
  | nil => exact ⟨rfl, by simp [afterTurns]⟩
  | cons t rest ih =>
    obtain ⟨frames, quit, -⟩ := s.turn_keeps t
    obtain ⟨frames', quit'⟩ := ih (s.turn t)
    refine ⟨?_, quit'.trans ?_⟩
    · rw [afterTurns, List.foldl_cons, ← afterTurns, frames', frames, List.length_cons]
      omega
    · rw [quit, List.exists_mem_cons_iff, or_assoc]

/-- Frames are numbered one after the other, and all of them show the views of the scope. -/
theorem showAll_keeps (turns : List Turn) :
    (s.showAll turns).map Prod.fst = List.range' (s.frames + 1) turns.length
      ∧ ∀ shown ∈ s.showAll turns, shown.2.map Frame.name = s.views.map StreamView.name := by
  induction turns generalizing s with
  | nil => exact ⟨rfl, fun _ mem => absurd mem List.not_mem_nil⟩
  | cons t rest ih =>
    obtain ⟨frames, -, names⟩ := s.turn_keeps t
    obtain ⟨numbers, others⟩ := ih (s.turn t)
    constructor
    · rw [showAll, List.map_cons, numbers, frames, List.length_cons, List.range'_succ]
    · intro shown mem
      rcases List.mem_cons.1 mem with rfl | mem
      · rw [List.map_map]
        exact names
      · exact (others shown mem).trans names

/-! ## The end of a run -/

/-- How many of the turns are made before the run is over. -/
def turnsMade (limit : Option Nat) : List Turn → Scope → Nat
  | [], _ => 0
  | t :: rest, s => if s.isOver false limit then 0 else turnsMade limit rest (s.turn t) + 1

/-- Turns are made up to the first moment at which the run is over. -/
theorem turnsMade_of_first {limit : Option Nat} {turns : List Turn} {n : Nat}
    (going : ∀ k < n, k < turns.length → (s.afterTurns (turns.take k)).isOver false limit = false)
    (finished : n < turns.length → (s.afterTurns (turns.take n)).isOver false limit = true) :
    turnsMade limit turns s = min n turns.length := by
  induction turns generalizing s n with
  | nil => exact (Nat.min_zero n).symm
  | cons t rest ih =>
    cases n with
    | zero =>
      have now : s.isOver false limit = true := finished (Nat.succ_pos _)
      rw [turnsMade, if_pos now, Nat.zero_min]
    | succ n =>
      have on : s.isOver false limit = false := going 0 (Nat.succ_pos n) (Nat.succ_pos _)
      have others : turnsMade limit rest (s.turn t) = min n rest.length :=
        ih (s.turn t) (fun k before inside => going (k + 1) (Nat.succ_lt_succ before) (Nat.succ_lt_succ inside))
          fun inside => finished (Nat.succ_lt_succ inside)
      rw [turnsMade, on, others, List.length_cons, Nat.succ_min_succ]
      rfl

/-- The numbers of frames after which a run may not go on: the limit, and that of each batch of commands in which
somebody asks to quit. -/
def Endings (limit : Option Nat) (batches : Nat → List ScopeCommand) : Set Nat :=
  {k | limit = some k ∨ ∃ b, k = b + 1 ∧ .quit ∈ batches b}

/-- A run goes on exactly until the least of these. -/
theorem turnsMade_eq {limit : Option Nat} {batches : Nat → List ScopeCommand} {n : Nat}
    (least : IsLeast (Endings limit batches) n) {turns : List Turn}
    (asks : ∀ k t, turns[k]? = some t → (t.AsksToQuit ↔ .quit ∈ batches k)) (first : s.frames = 0)
    (staying : s.quit = false) : turnsMade limit turns s = min n turns.length := by
  have over_iff : ∀ k ≤ turns.length, (s.afterTurns (turns.take k)).isOver false limit = true
      ↔ (∃ b < k, .quit ∈ batches b) ∨ ∃ m ≤ k, limit = some m := by
    intro k inside
    obtain ⟨frames, quit⟩ := s.afterTurns_keeps (turns.take k)
    rw [first, List.length_take_of_le inside, Nat.zero_add] at frames
    have asked : (∃ t ∈ turns.take k, t.AsksToQuit) ↔ ∃ b < k, .quit ∈ batches b := by
      constructor
      · rintro ⟨t, member, asked⟩
        obtain ⟨b, at_b⟩ := List.mem_iff_getElem?.1 member
        rw [List.getElem?_take] at at_b
        obtain ⟨before, at_b⟩ := Option.ite_none_right_eq_some.1 at_b
        exact ⟨b, before, (asks b t at_b).1 asked⟩
      · rintro ⟨b, before, asked⟩
        have at_b : turns[b]? = some turns[b] := List.getElem?_eq_getElem (Nat.lt_of_lt_of_le before inside)
        refine ⟨turns[b], List.mem_iff_getElem?.2 ⟨b, ?_⟩, (asks b _ at_b).2 asked⟩
        rw [List.getElem?_take_of_lt before, at_b]
    have limited : limit.any (fun m => decide (m ≤ k)) = true ↔ ∃ m ≤ k, limit = some m := by
      cases limit <;> simp
    rw [isOver, frames, Bool.false_or, Bool.or_eq_true, quit, staying, asked, limited]
    simp
  refine s.turnsMade_of_first ?_ ?_
  · intro k before inside
    refine Bool.eq_false_iff.2 fun finished => ?_
    rcases (over_iff k (Nat.le_of_lt inside)).1 finished with ⟨b, early, asked⟩ | ⟨m, reached, limited⟩
    · have := least.2 (.inr ⟨b, rfl, asked⟩)
      omega
    · have := least.2 (.inl limited)
      omega
  · intro inside
    refine (over_iff n (Nat.le_of_lt inside)).2 ?_
    rcases least.1 with limited | ⟨b, last, asked⟩
    · exact .inr ⟨n, Nat.le_refl n, limited⟩
    · exact .inl ⟨b, last ▸ Nat.lt_succ_self b, asked⟩

/-! ## Runs -/

/-- A run, and the moments that it leaves to come. -/
def runLeaving (limit : Option Nat) : List Moment → Scope → (List (Nat × List Frame) × Log × Scope) × List Moment
  | [], s => (([], [], s), [])
  | m :: rest, s =>
    if s.isOver m.shutdown limit then (([], s.farewell, s), m :: rest)
    else
      let (frames, log, s) := s.step m.pending
      let ((more, moreLog, last), left) := runLeaving limit rest s
      (((s.frames, frames) :: more, log ++ moreLog, last), left)

/-- The turn of a moment. -/
def Moment.turn (m : Moment) : Turn := .ofPending m.pending

section

variable {limit : Option Nat} {m : Moment} {rest moments : List Moment}

theorem run_of_over (finished : s.isOver m.shutdown limit = true) : run limit (m :: rest) s = ([], s.farewell, s) := by
  rw [run, if_pos finished]

theorem run_of_going (going : s.isOver m.shutdown limit = false) :
    run limit (m :: rest) s
      = (((s.turn m.turn).frames, (s.turn m.turn).views.map StreamView.frame) :: (run limit rest (s.turn m.turn)).1,
        (s.step m.pending).2.1 ++ (run limit rest (s.turn m.turn)).2.1, (run limit rest (s.turn m.turn)).2.2) := by
  have after : (s.step m.pending).2.2 = s.turn m.turn := (s.step_eq_turn m.pending).1
  have frames : (s.step m.pending).1 = (s.turn m.turn).views.map StreamView.frame := (s.step_eq_turn m.pending).2
  rw [← frames, ← after, run, going]
  rfl

theorem runLeaving_of_going (going : s.isOver m.shutdown limit = false) :
    runLeaving limit (m :: rest) s
      = ((((s.turn m.turn).frames, (s.turn m.turn).views.map StreamView.frame)
          :: (runLeaving limit rest (s.turn m.turn)).1.1,
        (s.step m.pending).2.1 ++ (runLeaving limit rest (s.turn m.turn)).1.2.1,
        (runLeaving limit rest (s.turn m.turn)).1.2.2), (runLeaving limit rest (s.turn m.turn)).2) := by
  have after : (s.step m.pending).2.2 = s.turn m.turn := (s.step_eq_turn m.pending).1
  have frames : (s.step m.pending).1 = (s.turn m.turn).views.map StreamView.frame := (s.step_eq_turn m.pending).2
  rw [← frames, ← after, runLeaving, going]
  rfl

variable (limit) (up : ∀ m ∈ moments, m.shutdown = false)

include up

/-- A run shows the turns that are made, leaves the scope as they do, and tells how many frames there were unless it
still goes on. -/
theorem run_eq :
    let made := (moments.map Moment.turn).take (turnsMade limit (moments.map Moment.turn) s)
    (run limit moments s).1 = s.showAll made ∧ (run limit moments s).2.2 = s.afterTurns made
      ∧ (made.length < moments.length → ∃ log, (run limit moments s).2.1 = log ++ (s.afterTurns made).farewell) := by
  induction moments generalizing s with
  | nil => exact ⟨rfl, rfl, fun short => absurd short (Nat.lt_irrefl 0)⟩
  | cons m rest ih =>
    obtain ⟨on, later⟩ := List.forall_mem_cons.1 up
    rw [List.map_cons, turnsMade]
    cases state : s.isOver false limit with
    | true =>
      rw [s.run_of_over (on.symm ▸ state)]
      exact ⟨rfl, rfl, fun _ => ⟨[], rfl⟩⟩
    | false =>
      obtain ⟨frames, last, told⟩ := ih (s.turn m.turn) later
      rw [s.run_of_going (on.symm ▸ state)]
      refine ⟨congrArg (_ :: ·) frames, last, fun short => ?_⟩
      obtain ⟨log, told⟩ := told (Nat.lt_of_succ_lt_succ short)
      refine ⟨(s.step m.pending).2.1 ++ log, ?_⟩
      rw [List.append_assoc]
      exact congrArg (_ ++ ·) told

/-- It leaves what comes after these turns. -/
theorem runLeaving_eq : runLeaving limit moments s
    = (run limit moments s, moments.drop (turnsMade limit (moments.map Moment.turn) s)) := by
  induction moments generalizing s with
  | nil => rfl
  | cons m rest ih =>
    obtain ⟨on, later⟩ := List.forall_mem_cons.1 up
    rw [List.map_cons, turnsMade]
    cases state : s.isOver false limit with
    | true =>
      rw [s.run_of_over (on.symm ▸ state), runLeaving, on, state]
      rfl
    | false =>
      rw [s.run_of_going (on.symm ▸ state), s.runLeaving_of_going (on.symm ▸ state), ih (s.turn m.turn) later]
      rfl

end

/-- A run of a new scope that is over after `n` frames, or goes on if there are no more moments: it shows as many turns,
leaves the scope as they do, leaves everything that comes later, and in the end tells how many frames there were. -/
structure RunsFor (limit : Option Nat) (moments : List Moment) (n : Nat) : Prop where
  frames : (run limit moments s).1 = s.showAll ((moments.map Moment.turn).take n)
  numbers : (run limit moments s).1.map Prod.fst = List.range' 1 (min n moments.length)
  names : ∀ shown ∈ (run limit moments s).1, shown.2.map Frame.name = s.views.map StreamView.name
  scope : (run limit moments s).2.2 = s.afterTurns ((moments.map Moment.turn).take n)
  left : runLeaving limit moments s = (run limit moments s, moments.drop n)
  told : n < moments.length → ∃ log,
    (run limit moments s).2.1 = log ++ .info ("presentation loop done after " ++ toString n ++ " frames")

/-- A run goes on exactly until the least number of frames at which it has to end. -/
theorem runsFor {limit : Option Nat} {batches : Nat → List ScopeCommand} {n : Nat}
    (least : IsLeast (Endings limit batches) n) {moments : List Moment} (up : ∀ m ∈ moments, m.shutdown = false)
    (waiting : ∀ k m, moments[k]? = some m → m.pending = batches k) (first : s.frames = 0) (staying : s.quit = false) :
    s.RunsFor limit moments n := by
  have asks : ∀ k t, (moments.map Moment.turn)[k]? = some t → (t.AsksToQuit ↔ .quit ∈ batches k) := by
    intro k t at_k
    rw [List.getElem?_map] at at_k
    obtain ⟨m, at_m, rfl⟩ := Option.map_eq_some_iff.1 at_k
    rw [← waiting k m at_m]
    exact (Turn.brings_ofPending m.pending).asksToQuit_iff
  have made : turnsMade limit (moments.map Moment.turn) s = min n (moments.map Moment.turn).length :=
    s.turnsMade_eq least asks first staying
  obtain ⟨frames, scope, told⟩ := s.run_eq limit up
  rw [made, ← List.take_eq_take_min] at frames scope told
  obtain ⟨numbers, names⟩ := s.showAll_keeps ((moments.map Moment.turn).take n)
  have length : ((moments.map Moment.turn).take n).length = min n moments.length := by
    rw [List.length_take, List.length_map]
  refine ⟨frames, ?_, fun shown mem => names shown (frames ▸ mem), scope, ?_, ?_⟩
  · rw [frames, numbers, first, length]
  · rw [s.runLeaving_eq limit up, made, List.length_map, ← List.drop_eq_drop_min]
  · intro finished
    obtain ⟨log, told⟩ := told (by rw [length]; omega)
    refine ⟨log, told.trans ?_⟩
    rw [farewell, (s.afterTurns_keeps _).1, first, length, Nat.min_eq_left (Nat.le_of_lt finished), Nat.zero_add]

end Scope

end Panadapter
