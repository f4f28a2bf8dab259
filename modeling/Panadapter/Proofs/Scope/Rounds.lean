import Mathlib.Order.WellFounded
import Panadapter.Proofs.Scope.Presentation
import Panadapter.Proofs.Stream.Course

/-!
# The rounds of a receiver

In a round of the receiver the workers write to their streams, and then the scope makes a step. So the rounds are turns
of the scope, and a run of the receiver is over exactly when one of the scope is.

* The steps of workers are inputs of the scope (`Receiver.scope_turns`), and a round is a turn
  (`Receiver.scope_afterRound`).
* A run shows the turns that are made (`Receiver.run_eq`).
* Once the program shuts down every worker comes to its end (`Receiver.hasEnded_windUp`).
* Both runs show as many frames as the limit and the commands ask for: `runs_until_over`.
-/

namespace Panadapter

/-- The view of a name that is given once is the one that is changed. -/
theorem Scope.changeFirst_at {views : List StreamView} (nodup : (views.map StreamView.name).Nodup) {index : Nat}
    {v : StreamView} (at_index : views[index]? = some v) (f : StreamView → StreamView) :
    changeFirst v.name f views = some (views.set index (f v)) := by
  induction views generalizing index with
  | nil => cases at_index
  | cons u rest ih =>
    obtain ⟨apart, nodup⟩ := List.nodup_cons.1 nodup
    rw [changeFirst]
    cases index with
    | zero =>
      obtain rfl : u = v := Option.some.inj at_index
      rw [if_pos rfl, List.set_cons_zero]
    | succ index =>
      have later : rest[index]? = some v := at_index
      have other : u.name ≠ v.name := fun same =>
        apart (same ▸ List.mem_map_of_mem (List.mem_of_getElem? later))
      rw [if_neg other, ih nodup later, Option.map_some, List.set_cons_succ]

/-- What is written before a turn belongs to it. -/
theorem Scope.turn_receiveAll (s : Scope) (writes : List ScopeInput) (pending : List ScopeCommand) :
    (s.receiveAll writes).turn (.ofPending pending) = s.turn ⟨writes ++ pending.map .command, []⟩ := by
  have joined : s.receiveAll (writes ++ pending.map .command)
      = (s.receiveAll writes).receiveAll (pending.map .command) := List.foldl_append
  rw [turn, turn, (s.receiveAll_keeps writes).1, joined]
  rfl

namespace Receiver

variable {storage : Storage} {now : Nat} {shutdown : Bool} {r : Receiver}

/-! ## Steps of workers -/

/-- What the next step of the worker at an index brings to the scope. -/
def write? (r : Receiver) (index : Nat) : Option ScopeInput :=
  match r.acquisitions[index]?, r.scope.views[index]? with
  | some a, some v => (a.worker.write? v.stream).map (.write v.name)
  | _, _ => none

/-- What the steps of workers bring, by index and in order. -/
def writes (storage : Storage) (now : Nat) (shutdown : Bool) : List Nat → Receiver → List ScopeInput
  | [], _ => []
  | index :: rest, r =>
    (r.write? index).toList ++ writes storage now shutdown rest (r.turn storage now shutdown index).2

theorem write_of_mem_writes {indices : List Nat} :
    ∀ i ∈ writes storage now shutdown indices r, ∃ stream w, i = .write stream w := by
  induction indices generalizing r with
  | nil => exact fun _ mem => absurd mem List.not_mem_nil
  | cons index rest ih =>
    intro i mem
    rcases List.mem_append.1 mem with first | later
    · have written : r.write? index = some i := Option.mem_toList.1 first
      unfold write? at written
      split at written
      · obtain ⟨w, -, rfl⟩ := Option.map_eq_some_iff.1 written
        exact ⟨_, w, rfl⟩
      · cases written
    · exact ih i later

/-- A receiver whose streams have different names. -/
def Distinct (r : Receiver) : Prop := (r.scope.views.map StreamView.name).Nodup

/-- A step of a worker does nothing else to the scope. -/
theorem scope_turn (distinct : r.Distinct) (index : Nat) :
    (r.turn storage now shutdown index).2.scope = r.scope.receiveAll (r.write? index).toList := by
  unfold turn write?
  cases acquisition : r.acquisitions[index]? with
  | none => rfl
  | some a =>
    cases view : r.scope.views[index]? with
    | none => rfl
    | some v =>
      have written : (a.step storage now shutdown v.stream).2.1
          = (a.worker.write? v.stream).elim v.stream v.stream.write := a.worker.stream_step _ shutdown v.stream
      have changed := Scope.changeFirst_at distinct view
      dsimp only
      rw [written]
      cases a.worker.write? v.stream with
      | none =>
        have same : r.scope.views.set index v = r.scope.views := by
          obtain ⟨inside, rfl⟩ := List.getElem?_eq_some_iff.1 view
          exact List.set_getElem_self inside
        show { r.scope with views := r.scope.views.set index v } = r.scope
        rw [same]
      | some w =>
        show { r.scope with views := r.scope.views.set index (v.next (.write w)) }
          = r.scope.changeView v.name (·.next (.write w))
        rw [Scope.changeView, changed]
        rfl

theorem Distinct.turn (distinct : r.Distinct) (index : Nat) : (r.turn storage now shutdown index).2.Distinct := by
  rw [Distinct, scope_turn distinct, (r.scope.receiveAll_keeps _).2.2]
  exact distinct

/-- Neither do many steps. -/
theorem scope_turns (distinct : r.Distinct) (indices : List Nat) :
    (r.turns storage now shutdown indices).2.scope = r.scope.receiveAll (writes storage now shutdown indices r) := by
  induction indices generalizing r with
  | nil => rfl
  | cons index rest ih =>
    show (turns storage now shutdown rest (r.turn storage now shutdown index).2).2.scope = _
    rw [ih (distinct.turn index), scope_turn distinct, writes]
    exact List.foldl_append.symm

/-! ## Rounds -/

variable (storage)

/-- The turn of the scope that a round is. -/
def turnOf (storage : Storage) (x : Round) (r : Receiver) : Scope.Turn :=
  ⟨writes storage x.now x.shutdown x.turns r ++ x.pending.map .command, []⟩

theorem brings_turnOf (x : Round) : (turnOf storage x r).Brings x.pending :=
  ⟨_, write_of_mem_writes, rfl⟩

/-- The receiver after a round that is shown. -/
def afterRound (storage : Storage) (x : Round) (r : Receiver) : Receiver :=
  let r := (r.turns storage x.now x.shutdown x.turns).2
  { r with scope := (r.scope.step x.pending).2.2 }

theorem scope_afterRound (distinct : r.Distinct) (x : Round) :
    (r.afterRound storage x).scope = r.scope.turn (turnOf storage x r) := by
  show ((r.turns storage x.now x.shutdown x.turns).2.scope.step x.pending).2.2 = _
  rw [((r.turns storage x.now x.shutdown x.turns).2.scope.step_eq_turn x.pending).1, scope_turns distinct]
  exact r.scope.turn_receiveAll _ x.pending

theorem Distinct.afterRound (distinct : r.Distinct) (x : Round) : (r.afterRound storage x).Distinct := by
  rw [Distinct, scope_afterRound storage distinct, (r.scope.turn_keeps _).2.2]
  exact distinct

section

variable {limit : Option Nat} {x : Round} (up : x.shutdown = false)

include up

/-- The steps of the workers do not decide whether the run is over. -/
theorem isOver_turns (limit : Option Nat) (distinct : r.Distinct) :
    (r.turns storage x.now x.shutdown x.turns).2.scope.isOver x.shutdown limit = r.scope.isOver false limit := by
  obtain ⟨frames, quit, -⟩ := r.scope.receiveAll_keeps (writes storage x.now x.shutdown x.turns r)
  have silent : .command .quit ∉ writes storage x.now x.shutdown x.turns r := fun member => by
    obtain ⟨stream, w, same⟩ := write_of_mem_writes _ member
    cases same
  have wish : (r.scope.receiveAll (writes storage x.now x.shutdown x.turns r)).quit = r.scope.quit := by
    rw [Bool.eq_iff_iff, quit]
    exact or_iff_left silent
  rw [scope_turns distinct, Scope.isOver, Scope.isOver, frames, wish, up]

theorem round_of_over (distinct : r.Distinct) (finished : r.scope.isOver false limit = true) :
    ∃ log, r.round storage limit x = (none, log, (r.turns storage x.now x.shutdown x.turns).2) := by
  have still := (isOver_turns storage up limit distinct).trans finished
  unfold round
  dsimp only
  rw [if_pos still]
  exact ⟨_, rfl⟩

theorem round_of_going (distinct : r.Distinct) (going : r.scope.isOver false limit = false) :
    ∃ log, r.round storage limit x
      = (some ((r.afterRound storage x).scope.views.map StreamView.frame), log, r.afterRound storage x) := by
  have still := (isOver_turns storage up limit distinct).trans going
  have frames : ((r.turns storage x.now x.shutdown x.turns).2.scope.step x.pending).1
      = (r.afterRound storage x).scope.views.map StreamView.frame := by
    obtain ⟨after, frames⟩ := (r.turns storage x.now x.shutdown x.turns).2.scope.step_eq_turn x.pending
    rw [frames, ← after]
    rfl
  unfold round
  dsimp only
  rw [if_neg (Bool.eq_false_iff.1 still), frames]
  exact ⟨_, rfl⟩

end

/-! ## Runs -/

/-- The turns of the scope that rounds are. -/
def turnsOf (storage : Storage) : List Round → Receiver → List Scope.Turn
  | [], _ => []
  | x :: rest, r => turnOf storage x r :: turnsOf storage rest (r.afterRound storage x)

theorem length_turnsOf (rounds : List Round) : (turnsOf storage rounds r).length = rounds.length := by
  induction rounds generalizing r with
  | nil => rfl
  | cons x rest ih => exact congrArg (· + 1) ih

theorem brings_of_turnsOf {rounds : List Round} {k : Nat} {t : Scope.Turn}
    (at_k : (turnsOf storage rounds r)[k]? = some t) : ∃ x, rounds[k]? = some x ∧ t.Brings x.pending := by
  induction rounds generalizing r k with
  | nil => cases at_k
  | cons x rest ih =>
    cases k with
    | zero =>
      obtain rfl : turnOf storage x r = t := Option.some.inj at_k
      exact ⟨x, rfl, brings_turnOf storage x⟩
    | succ k => exact ih at_k

/-- A run of the receiver shows the turns that are made. -/
theorem run_eq (limit : Option Nat) {rounds : List Round} (up : ∀ x ∈ rounds, x.shutdown = false)
    (distinct : r.Distinct) : (run storage limit rounds r).1 = r.scope.showAll
      ((turnsOf storage rounds r).take (Scope.turnsMade limit (turnsOf storage rounds r) r.scope)) := by
  induction rounds generalizing r with
  | nil => rfl
  | cons x rest ih =>
    obtain ⟨on, later⟩ := List.forall_mem_cons.1 up
    rw [turnsOf, Scope.turnsMade]
    cases state : r.scope.isOver false limit with
    | true =>
      obtain ⟨log, shown⟩ := round_of_over storage on distinct state
      rw [run, shown]
      rfl
    | false =>
      obtain ⟨log, shown⟩ := round_of_going storage on distinct state
      have others := ih later (distinct.afterRound storage x)
      rw [run, shown]
      dsimp only
      rw [others, scope_afterRound storage distinct]
      rfl

/-! ## The end of the workers -/

/-- A receiver with a worker for each of its views. -/
structure Staffed (r : Receiver) (count : Nat) : Prop where
  workers : r.acquisitions.length = count
  views : r.scope.views.length = count

variable (now) {count : Nat}

namespace Staffed

variable (shutdown)

theorem turn (staffed : r.Staffed count) (index : Nat) : (r.turn storage now shutdown index).2.Staffed count := by
  unfold Receiver.turn
  split
  · exact ⟨List.length_set.trans staffed.workers, List.length_set.trans staffed.views⟩
  · exact staffed

theorem turns (staffed : r.Staffed count) (indices : List Nat) :
    (r.turns storage now shutdown indices).2.Staffed count := by
  induction indices generalizing r with
  | nil => exact staffed
  | cons index rest ih => exact ih (staffed.turn storage now shutdown index)

theorem afterRound (staffed : r.Staffed count) (x : Round) : (r.afterRound storage x).Staffed count := by
  have turned := staffed.turns storage x.now x.shutdown x.turns
  refine ⟨turned.workers, ?_⟩
  obtain ⟨after, -⟩ := (r.turns storage x.now x.shutdown x.turns).2.scope.step_eq_turn x.pending
  have names := ((r.turns storage x.now x.shutdown x.turns).2.scope.turn_keeps (.ofPending x.pending)).2.2
  have lengths := congrArg List.length names
  rw [List.length_map, List.length_map, turned.views, ← after] at lengths
  exact lengths

theorem run (staffed : r.Staffed count) (distinct : r.Distinct) (limit : Option Nat) {rounds : List Round}
    (up : ∀ x ∈ rounds, x.shutdown = false) : (run storage limit rounds r).2.2.Staffed count := by
  induction rounds generalizing r with
  | nil => exact staffed
  | cons x rest ih =>
    obtain ⟨on, later⟩ := List.forall_mem_cons.1 up
    cases state : r.scope.isOver false limit with
    | true =>
      obtain ⟨log, shown⟩ := round_of_over storage on distinct state
      rw [Receiver.run, shown]
      exact staffed.turns storage x.now x.shutdown x.turns
    | false =>
      obtain ⟨log, shown⟩ := round_of_going storage on distinct state
      rw [Receiver.run, shown]
      exact ih (staffed.afterRound storage x) (distinct.afterRound storage x) later

end Staffed

/-- Once the program shuts down, a step of a worker leaves it less to do, and the others as much. -/
theorem stepsLeft_turn (staffed : r.Staffed count) (index : Nat) {k : Nat} {a : Acquisition}
    (at_k : r.acquisitions[k]? = some a) : ∃ b, (r.turn storage now true index).2.acquisitions[k]? = some b
      ∧ b.worker.position.stepsLeft ≤ a.worker.position.stepsLeft - [index].count k := by
  have inside : k < r.scope.views.length := by
    rw [staffed.views, ← staffed.workers]
    exact (List.getElem?_eq_some_iff.1 at_k).1
  by_cases same : index = k
  · subst same
    have view := List.getElem?_eq_getElem inside
    have there : index < r.acquisitions.length := (List.getElem?_eq_some_iff.1 at_k).1
    have less := LiveStream.stepsLeft_work (x := ⟨a.worker, r.scope.views[index].stream, true⟩) rfl
      (a.answer storage now).1
    unfold turn
    rw [at_k, view]
    refine ⟨(a.step storage now true r.scope.views[index].stream).1, List.getElem?_set_self there, ?_⟩
    rw [List.count_singleton_self]
    exact less
  · have other : [index].count k = 0 := List.count_eq_zero_of_not_mem (by simpa using Ne.symm same)
    refine ⟨a, ?_, by rw [other]; exact Nat.le_refl _⟩
    unfold turn
    split
    · rw [List.getElem?_set_ne same]
      exact at_k
    · exact at_k

theorem stepsLeft_turns (staffed : r.Staffed count) (indices : List Nat) {k : Nat} {a : Acquisition}
    (at_k : r.acquisitions[k]? = some a) : ∃ b, (r.turns storage now true indices).2.acquisitions[k]? = some b
      ∧ b.worker.position.stepsLeft ≤ a.worker.position.stepsLeft - indices.count k := by
  induction indices generalizing r a with
  | nil => exact ⟨a, at_k, Nat.le_refl _⟩
  | cons index rest ih =>
    obtain ⟨b, at_k, first⟩ := stepsLeft_turn storage now staffed index at_k
    obtain ⟨c, at_k, later⟩ := ih (staffed.turn storage now true index) at_k
    have counted : (index :: rest).count k = [index].count k + rest.count k := by
      rw [← List.count_append, List.singleton_append]
    exact ⟨c, at_k, by omega⟩

/-- The steps at the end are enough for every worker. -/
theorem hasEnded_windUp (staffed : r.Staffed count) :
    (r.windUp storage now).2.Staffed count ∧ ∀ a ∈ (r.windUp storage now).2.acquisitions, a.hasEnded = true := by
  have wound : (r.windUp storage now).2.Staffed count := staffed.turns storage now true _
  refine ⟨wound, fun b member => ?_⟩
  obtain ⟨k, at_k⟩ := List.mem_iff_getElem?.1 member
  have inside : k < r.acquisitions.length := by
    rw [staffed.workers, ← wound.workers]
    exact (List.getElem?_eq_some_iff.1 at_k).1
  have steps : (List.replicate stepsToEnd (List.range r.acquisitions.length)).flatten.count k = 16 := by
    rw [List.count_flatten, List.map_replicate,
      List.count_eq_one_of_mem List.nodup_range (List.mem_range.2 inside), List.sum_replicate_nat]
    rfl
  obtain ⟨c, at_k', left⟩ := stepsLeft_turns storage now staffed
    (List.replicate stepsToEnd (List.range r.acquisitions.length)).flatten (List.getElem?_eq_getElem inside)
  obtain rfl : b = c := Option.some.inj (at_k.symm.trans at_k')
  have bound := r.acquisitions[k].worker.position.stepsLeft_le
  have ended : b.worker.position = .ended := Position.eq_ended_of_stepsLeft (by omega)
  rw [Acquisition.hasEnded, ended]

/-! ## All of a run -/

/-- The receiver of a configuration, before anything has happened. -/
def start (c : ScopeConfig) : Receiver := ⟨c.scope, c.streams.map acquisitionOf⟩

variable {c : ScopeConfig}

theorem names_start (c : ScopeConfig) :
    (start c).scope.views.map StreamView.name = c.streams.map StreamConfig.name := (Scope.follows_scope c).names

theorem distinct_start (valid : c.validate = .ok ()) : (start c).Distinct := by
  rw [Distinct, names_start]
  exact (ScopeConfig.of_validate valid).1

theorem staffed_start (c : ScopeConfig) : (start c).Staffed c.streams.length := by
  refine ⟨List.length_map _, ?_⟩
  rw [← List.length_map, names_start, List.length_map]

theorem perform_of_invalid {e : ConfigError} (invalid : c.validate = .error e) (limit : Option Nat)
    (rounds : List Round) (ending : Nat) : perform c storage limit rounds ending = ⟨[], [], false, .error e⟩ := by
  have refused : ofConfig? c = .error e := by
    rw [ofConfig?, invalid]
    rfl
  rw [perform, refused]

theorem perform_of_validate (valid : c.validate = .ok ()) (limit : Option Nat) (rounds : List Round) (ending : Nat) :
    perform c storage limit rounds ending = ⟨(run storage limit rounds (start c)).1,
      c.streams.map announcement ++ (run storage limit rounds (start c)).2.1
        ++ ((run storage limit rounds (start c)).2.2.windUp storage ending).1,
      true, .ok ((run storage limit rounds (start c)).2.2.windUp storage ending).2⟩ := by
  have made : ofConfig? c = .ok (c.streams.map announcement, start c) := by
    rw [ofConfig?, valid]
    rfl
  rw [perform, made]

/-- What a run of the receiver comes to: a frame for each turn, in which commands come as they are waiting, and workers
that have come to their ends. -/
structure Performance.Performs (p : Performance) (c : ScopeConfig) (turns : List Scope.Turn) : Prop where
  frames : p.frames = c.scope.showAll turns
  numbers : p.frames.map Prod.fst = List.range' 1 turns.length
  names : ∀ shown ∈ p.frames, shown.2.map Frame.name = c.streams.map StreamConfig.name
  shutdown : p.shutdown = true
  ended : ∃ r, p.outcome = .ok r ∧ r.acquisitions.length = c.streams.length
    ∧ ∀ a ∈ r.acquisitions, a.hasEnded = true

/-- A run shows turns up to the least number at which it has to end. -/
theorem performs_perform (valid : c.validate = .ok ()) {limit : Option Nat} {rounds : List Round}
    (up : ∀ x ∈ rounds, x.shutdown = false) {batches : Nat → List ScopeCommand}
    (waiting : ∀ k x, rounds[k]? = some x → x.pending = batches k) {n : Nat}
    (least : IsLeast (Scope.Endings limit batches) n) (ending : Nat) :
    ∃ turns : List Scope.Turn, turns.length = min n rounds.length
      ∧ (∀ (k : Nat) (t : Scope.Turn), turns[k]? = some t → t.Brings (batches k))
      ∧ (perform c storage limit rounds ending).Performs c turns := by
  have distinct := distinct_start valid
  have brings : ∀ (k : Nat) (t : Scope.Turn), (turnsOf storage rounds (start c))[k]? = some t →
      t.Brings (batches k) := by
    intro k t at_k
    obtain ⟨x, at_k, brings⟩ := brings_of_turnsOf storage at_k
    exact waiting k x at_k ▸ brings
  have made : Scope.turnsMade limit (turnsOf storage rounds (start c)) (start c).scope
      = min n (turnsOf storage rounds (start c)).length :=
    (start c).scope.turnsMade_eq least (fun k t at_k => (brings k t at_k).asksToQuit_iff) rfl rfl
  have shown := run_eq storage limit up distinct
  rw [made, ← List.take_eq_take_min] at shown
  obtain ⟨numbers, names⟩ := (start c).scope.showAll_keeps ((turnsOf storage rounds (start c)).take n)
  rw [← shown] at numbers names
  obtain ⟨wound, ended⟩ := hasEnded_windUp storage ending ((staffed_start c).run storage distinct limit up)
  refine ⟨(turnsOf storage rounds (start c)).take n, ?_, ?_, ?_⟩
  · rw [List.length_take, length_turnsOf]
  · intro k t at_k
    rw [List.getElem?_take] at at_k
    exact brings k t (Option.ite_none_right_eq_some.1 at_k).2
  · rw [perform_of_validate storage valid]
    exact ⟨shown, numbers, fun f member => (names f member).trans (names_start c), rfl, _, rfl, wound.workers, ended⟩

end Receiver

/-- **Runs until they are over.** Before each frame a batch of commands is waiting, and somebody asks to quit by one of
them or there is a limit of frames. Then there is a least number of frames at which the limit is reached or somebody has
asked to quit. A run of a new scope is over after that many frames, and so is a run of the receiver of a valid
configuration, whatever its workers write; it tells the program to shut down, and all workers come to their ends. Of a
configuration that is not valid nothing is shown. -/
theorem runs_until_over (limit : Option Nat) (rounds : Nat → Receiver.Round) (up : ∀ k, (rounds k).shutdown = false)
    (ends : limit ≠ none ∨ ∃ k, .quit ∈ (rounds k).pending) :
    ∃ n, IsLeast (Scope.Endings limit fun k => (rounds k).pending) n
      ∧ (∀ views fps given, (Scope.ofViews views fps).RunsFor limit
        ((List.range given).map fun k => ⟨false, (rounds k).pending⟩) n)
      ∧ ∀ c storage given ending,
        let p := Receiver.perform c storage limit ((List.range given).map rounds) ending
        (∀ e, c.validate = .error e → p.frames = [] ∧ p.outcome = .error e)
          ∧ (c.validate = .ok () → n < given → ∃ turns : List Scope.Turn, turns.length = n
            ∧ (∀ (k : Nat) (t : Scope.Turn), turns[k]? = some t → t.Brings (rounds k).pending)
            ∧ p.Performs c turns) := by
  have some_ending : (Scope.Endings limit fun k => (rounds k).pending).Nonempty := by
    rcases ends with limited | ⟨k, asked⟩
    · obtain ⟨m, limited⟩ := Option.ne_none_iff_exists'.1 limited
      exact ⟨m, .inl limited⟩
    · exact ⟨k + 1, .inr ⟨k, rfl, asked⟩⟩
  obtain ⟨n, ends, first⟩ := wellFounded_lt.has_min _ some_ending
  have least : IsLeast (Scope.Endings limit fun k => (rounds k).pending) n :=
    ⟨ends, fun k mem => Nat.not_lt.1 (first k mem)⟩
  refine ⟨n, least, fun views fps given => ?_,
    fun c storage given ending => ⟨fun e invalid => ?_, fun valid finished => ?_⟩⟩
  · refine Scope.runsFor _ least ?_ ?_ rfl rfl
    · intro m member
      obtain ⟨k, -, rfl⟩ := List.mem_map.1 member
      rfl
    · intro k m at_k
      obtain ⟨inside, rfl⟩ := List.getElem?_eq_some_iff.1 at_k
      rw [List.getElem_map, List.getElem_range]
  · rw [Receiver.perform_of_invalid storage invalid]
    exact ⟨rfl, rfl⟩
  · have on : ∀ x ∈ (List.range given).map rounds, x.shutdown = false := by
      intro x member
      obtain ⟨k, -, rfl⟩ := List.mem_map.1 member
      exact up k
    have waiting : ∀ k x, ((List.range given).map rounds)[k]? = some x → x.pending = (rounds k).pending := by
      intro k x at_k
      obtain ⟨inside, rfl⟩ := List.getElem?_eq_some_iff.1 at_k
      rw [List.getElem_map, List.getElem_range]
    obtain ⟨turns, length, brings, performs⟩ :=
      Receiver.performs_perform storage valid on waiting least ending
    rw [List.length_map, List.length_range, Nat.min_eq_left (Nat.le_of_lt finished)] at length
    exact ⟨turns, length, brings, performs⟩

/-- Rounds of one worker. Somebody asks to quit in the second one, and then goes on asking. -/
def Receiver.quittingRounds (k : Nat) : Receiver.Round :=
  ⟨0, [0], false, if k = 1 then [.quit, .change "raw" .disable] else []⟩

theorem Receiver.isLeast_endings_quitting :
    IsLeast (Scope.Endings (some 5) fun k => (quittingRounds k).pending) 2 := by
  refine ⟨.inr ⟨1, rfl, List.mem_cons_self⟩, ?_⟩
  rintro k (limited | ⟨b, rfl, asked⟩)
  · obtain rfl : 5 = k := Option.some.inj limited
    decide
  · have second : b = 1 := by
      by_contra other
      simp [quittingRounds, other] at asked
    omega

/-- The run shows the second round, but no third one. -/
theorem run_until_quit : (∀ k, (Receiver.quittingRounds k).shutdown = false)
    ∧ (some 5 ≠ none ∨ ∃ k, ScopeCommand.quit ∈ (Receiver.quittingRounds k).pending)
    ∧ (Receiver.perform .narrow .empty (some 5) ((List.range 4).map Receiver.quittingRounds) 0).frames.map Prod.fst
      = [1, 2] := by
  have limited : some 5 ≠ none ∨ ∃ k, ScopeCommand.quit ∈ (Receiver.quittingRounds k).pending := .inl nofun
  obtain ⟨n, least, -, performs⟩ := runs_until_over (some 5) Receiver.quittingRounds (fun _ => rfl) limited
  obtain rfl : n = 2 := least.unique Receiver.isLeast_endings_quitting
  obtain ⟨turns, length, -, performs⟩ := (performs .narrow .empty 4 0).2 rfl (by decide)
  exact ⟨fun _ => rfl, limited, performs.numbers.trans (by rw [length]; rfl)⟩

end Panadapter
