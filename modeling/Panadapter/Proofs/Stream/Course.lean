import Panadapter.Proofs.Stream.Attempts

/-!
# The course of a worker

What a worker publishes and counts goes with where it is, and a failed attempt bars the next one until the stream is
switched on.

* What is published, what is counted and what is barred, each kept by every event: `LiveStream.announces_next`,
  `LiveStream.counts_next`, `LiveStream.bars_next`, `LiveStream.spaced_next`.
* Once the program shuts down the worker has a bounded number of steps left (`Chronicle.stepsLeft_recordAll`).
* `worker_keeps_order`: all this for every run of a stream.
-/

namespace Panadapter

/-! ## What is published -/

/-- The states that may follow a state. -/
def StreamState.successors : StreamState → List StreamState
  | idle => [waitingForEnable]
  | waitingForEnable | failed => [acquiring, failed, stopped]
  | acquiring => [waitingForEnable, shuttingDown]
  | shuttingDown => [stopped]
  | stopped => []

namespace Position

/-- The states that may be published where a worker is. -/
def published : Position → List StreamState
  | beginning => [.idle]
  | testingShutdown | ending => [.waitingForEnable, .failed, .shuttingDown]
  | checkingEnabled _ | checkingShutdown _ | polling _ | pushing _ _ | recording _ _ _ | leaving _
  | announcingShutdown _ => [.acquiring]
  | stopping _ | closing | settling => [.acquiring, .shuttingDown]
  | ended => [.stopped]
  | _ => [.waitingForEnable, .failed]

/-- Whether a worker gets there only after it has seen that the program shuts down. -/
def leavesForGood : Position → Bool
  | announcingShutdown _ | ending | ended => true
  | _ => false

end Position

namespace LiveStream

/-- A stream that publishes what goes with where its worker is. -/
structure Announces (x : LiveStream) : Prop where
  state : x.stream.control.state ∈ x.worker.position.published
  shutdown : x.stream.control.state = .shuttingDown ∨ x.worker.position.leavesForGood = true → x.shutdown = true

/-- The published state stays, or one of those that may follow it is published. -/
def Succeeds (x y : LiveStream) : Prop :=
  y.stream.control.state = x.stream.control.state ∨ y.stream.control.state ∈ x.stream.control.state.successors

section

variable {x y : LiveStream}

/-- A step that publishes nothing. -/
theorem Announces.stay (a : x.Announces) (same : y.stream.control.state = x.stream.control.state)
    (seen : y.shutdown = x.shutdown) (known : x.stream.control.state ∈ y.worker.position.published)
    (meant : y.worker.position.leavesForGood = true → x.shutdown = true) : y.Announces ∧ x.Succeeds y := by
  refine ⟨⟨same ▸ known, ?_⟩, .inl same⟩
  rw [same, seen]
  rintro (shuttingDown | leaves)
  · exact a.shutdown (.inl shuttingDown)
  · exact meant leaves

/-- A step that publishes a state which may follow. -/
theorem announces_publish (follows : y.stream.control.state ∈ x.stream.control.state.successors)
    (known : y.stream.control.state ∈ y.worker.position.published)
    (meant : y.stream.control.state = .shuttingDown ∨ y.worker.position.leavesForGood = true → y.shutdown = true) :
    y.Announces ∧ x.Succeeds y :=
  ⟨⟨known, meant⟩, .inr follows⟩

end

/-- A step of the worker publishes what goes with where it gets, and only what may follow. -/
theorem announces_work {x : LiveStream} (a : x.Announces) (answers : Answers) :
    (x.next (.work answers)).Announces ∧ x.Succeeds (x.next (.work answers)) := by
  have known := a.state
  have meant := a.shutdown
  obtain ⟨⟨source, layout, position⟩, ⟨⟨name, enabled, state, stats, lastError⟩, queue⟩, shutdown⟩ := x
  obtain ⟨opened, started, polled⟩ := answers
  cases position with
  | beginning =>
    obtain rfl : state = .idle := List.mem_singleton.1 known
    exact announces_publish (.head _) (.head _) (by rintro (⟨⟨⟩⟩ | ⟨⟨⟩⟩))
  | testingShutdown =>
    cases shutdown with
    | true => exact a.stay rfl rfl known fun _ => rfl
    | false =>
      have others : state ≠ .shuttingDown := fun h => Bool.noConfusion (meant (.inl h))
      have left : state ∈ [.waitingForEnable, .failed] := by
        simpa [Position.published, others] using known
      exact a.stay rfl rfl left fun h => Bool.noConfusion h
  | testingEnabled =>
    cases enabled with
    | true => exact a.stay rfl rfl known fun h => Bool.noConfusion h
    | false =>
      have wider : state ∈ [.waitingForEnable, .failed] ++ [.shuttingDown] := List.mem_append_left _ known
      exact a.stay rfl rfl wider fun h => Bool.noConfusion h
  | opening => cases opened <;> exact a.stay rfl rfl known fun h => Bool.noConfusion h
  | starting device => cases started <;> exact a.stay rfl rfl known fun h => Bool.noConfusion h
  | polling device => cases polled <;> exact a.stay rfl rfl known fun h => Bool.noConfusion h
  | markingFailure =>
    have follows : .failed ∈ state.successors := by
      simp only [Position.published, List.mem_cons, List.not_mem_nil, or_false] at known
      rcases known with rfl | rfl <;> decide
    exact announces_publish follows (.tail _ (.head _)) (by rintro (⟨⟨⟩⟩ | ⟨⟨⟩⟩))
  | announcing device =>
    have follows : .acquiring ∈ state.successors := by
      simp only [Position.published, List.mem_cons, List.not_mem_nil, or_false] at known
      rcases known with rfl | rfl <;> decide
    exact announces_publish follows (.head _) (by rintro (⟨⟨⟩⟩ | ⟨⟨⟩⟩))
  | checkingEnabled device => cases enabled <;> exact a.stay rfl rfl known fun h => Bool.noConfusion h
  | checkingShutdown device => cases shutdown <;> exact a.stay rfl rfl known fun h => Bool.noConfusion h
  | leaving device =>
    cases shutdown with
    | true => exact a.stay rfl rfl known fun _ => rfl
    | false =>
      have wider : state ∈ [.acquiring] ++ [.shuttingDown] := List.mem_append_left _ known
      exact a.stay rfl rfl wider fun h => Bool.noConfusion h
  | announcingShutdown device =>
    obtain rfl : state = .acquiring := List.mem_singleton.1 known
    exact announces_publish (.tail _ (.head _)) (.tail _ (.head _)) fun _ => meant (.inr rfl)
  | settling =>
    simp only [Position.published, List.mem_cons, List.not_mem_nil, or_false] at known
    rcases known with rfl | rfl
    · exact announces_publish (.head _) (.head _) (by rintro (⟨⟨⟩⟩ | ⟨⟨⟩⟩))
    · exact a.stay rfl rfl (.tail _ (.tail _ (.head _))) fun h => Bool.noConfusion h
  | ending =>
    have follows : .stopped ∈ state.successors := by
      simp only [Position.published, List.mem_cons, List.not_mem_nil, or_false] at known
      rcases known with rfl | rfl | rfl <;> decide
    exact announces_publish follows (.head _) fun _ => meant (.inr rfl)
  | ended => exact a.stay rfl rfl known fun _ => meant (.inr rfl)
  | _ => exact a.stay rfl rfl known fun h => Bool.noConfusion h

/-- Every event publishes what goes with where the worker gets, and only what may follow. -/
theorem announces_next {x : LiveStream} (a : x.Announces) (e : StreamEvent) :
    (x.next e).Announces ∧ x.Succeeds (x.next e) := by
  cases e with
  | work answers => exact announces_work a answers
  | shutDown => exact ⟨⟨a.state, fun _ => rfl⟩, .inl rfl⟩
  | _ => exact a.stay rfl rfl a.state fun h => a.shutdown (.inr h)

end LiveStream

/-! ## Failures -/

/-- The message of the last one of some failures. -/
def lastReason (failures : List DeviceError) : Option String := failures.getLast?.map DeviceError.message

namespace LiveStream

/-- What a stream has counted and kept of the failures so far. A failure is counted first, then its reason is kept. -/
def Counts (x : LiveStream) (failures : List DeviceError) : Prop :=
  match x.worker.position with
  | .closingRefused reason | .countingFailure reason => ∃ earlier, failures = earlier ++ [reason]
      ∧ x.stream.control.stats.openFailures = earlier.length ∧ x.stream.control.lastError = lastReason earlier
  | .keepingReason reason => x.stream.control.stats.openFailures = failures.length
      ∧ some reason.message = lastReason failures
  | _ => x.stream.control.stats.openFailures = failures.length ∧ x.stream.control.lastError = lastReason failures

/-- No failure more. -/
theorem Counts.still {x y : LiveStream} {failures : List DeviceError} (c : x.Counts failures)
    (h : x.Counts failures → y.Counts failures) : y.Counts (failures ++ []) := by
  rw [List.append_nil]
  exact h c

/-- A step of the worker counts the failure that it has seen, or keeps its reason. -/
theorem counts_work {x : LiveStream} {failures : List DeviceError} (c : x.Counts failures) (answers : Answers) :
    (x.next (.work answers)).Counts (failures ++ (x.deed? (.work answers)).toList.filterMap Deed.failure?) := by
  obtain ⟨⟨source, layout, position⟩, ⟨⟨name, enabled, state, stats, lastError⟩, queue⟩, shutdown⟩ := x
  obtain ⟨opened, started, polled⟩ := answers
  cases position with
  | opening =>
    cases opened with
    | error reason => exact ⟨failures, rfl, c⟩
    | ok device => exact c.still fun h => h
  | starting device =>
    cases started with
    | error reason => exact ⟨failures, rfl, c⟩
    | ok started => exact c.still fun h => h
  | countingFailure reason =>
    refine c.still ?_
    rintro ⟨earlier, rfl, count, -⟩
    refine ⟨?_, by simp [lastReason]⟩
    show stats.openFailures + 1 = (earlier ++ [reason]).length
    rw [List.length_append, ← count]
    rfl
  | keepingReason reason => exact c.still fun ⟨count, reason⟩ => ⟨count, reason⟩
  | polling device => cases polled <;> exact c.still fun h => h
  | testingShutdown => cases shutdown <;> exact c.still fun h => h
  | testingEnabled => cases enabled <;> exact c.still fun h => h
  | checkingEnabled device => cases enabled <;> exact c.still fun h => h
  | checkingShutdown device => cases shutdown <;> exact c.still fun h => h
  | leaving device => cases shutdown <;> exact c.still fun h => h
  | settling => cases state <;> exact c.still fun h => h
  | _ => exact c.still fun h => h

/-- Every event keeps the count of the failures. -/
theorem counts_next {x : LiveStream} {failures : List DeviceError} (c : x.Counts failures) (e : StreamEvent) :
    (x.next e).Counts (failures ++ (x.deed? e).toList.filterMap Deed.failure?) := by
  cases e with
  | work answers => exact counts_work c answers
  | drain n policy out =>
    have silent : (x.deed? (.drain n policy out)).toList.filterMap Deed.failure? = [] := by
      cases done : x.deed? (.drain n policy out) with
      | none => rfl
      | some d =>
        obtain ⟨window, gone, rfl⟩ := drained_of_deed? done
        rfl
    rw [silent]
    exact c.still fun h => h
  | _ => exact c.still fun h => h

end LiveStream

/-! ## After a failure -/

/-- Deeds with a failure, and without the stream switched on since. -/
def Barred (deeds : List Deed) : Prop :=
  ∃ before failed since, deeds = before ++ failed :: since ∧ failed.failure?.isSome ∧ .enabled ∉ since

/-- Deeds that open no source while that is barred. -/
def Spaced (deeds : List Deed) : Prop := ∀ before answer after, deeds = before ++ .opened answer :: after → ¬Barred before

theorem Barred.of_concat {deeds : List Deed} {d : Deed} (b : Barred (deeds ++ [d])) :
    d.failure?.isSome ∨ (Barred deeds ∧ d ≠ .enabled) := by
  obtain ⟨before, failed, since, cut, fails, off⟩ := b
  rcases List.eq_nil_or_concat since with rfl | ⟨since, last, rfl⟩
  · obtain ⟨-, same⟩ := List.append_inj' cut rfl
    obtain rfl : d = failed := List.singleton_inj.1 same
    exact .inl fails
  · rw [List.concat_eq_append, ← List.cons_append, ← List.append_assoc] at cut
    obtain ⟨rfl, same⟩ := List.append_inj' cut rfl
    obtain rfl : d = last := List.singleton_inj.1 same
    rw [List.concat_eq_append, List.mem_append, not_or, List.mem_singleton] at off
    exact .inr ⟨⟨before, failed, since, rfl, fails, off.1⟩, Ne.symm off.2⟩

theorem Spaced.concat {deeds : List Deed} {d : Deed} (s : Spaced deeds)
    (h : ∀ answer, d = .opened answer → ¬Barred deeds) : Spaced (deeds ++ [d]) := by
  intro before answer after cut
  rcases List.eq_nil_or_concat after with rfl | ⟨after, last, rfl⟩
  · obtain ⟨rfl, same⟩ := List.append_inj' cut rfl
    exact h answer (List.singleton_inj.1 same)
  · rw [List.concat_eq_append, ← List.cons_append, ← List.append_assoc] at cut
    obtain ⟨rfl, -⟩ := List.append_inj' cut rfl
    exact s before answer after rfl

namespace LiveStream

/-- Where a worker can be while its stream has not been switched on since a failure. -/
def Bars (x : LiveStream) : Prop :=
  match x.worker.position with
  | .closingRefused _ | .countingFailure _ | .keepingReason _ | .switchingOff => True
  | .markingFailure | .testingShutdown | .testingEnabled | .ending | .ended => x.stream.control.enabled = false
  | _ => False

/-- Only switching the stream on lets the worker get any further. -/
theorem Bars.next {x : LiveStream} (b : x.Bars) {e : StreamEvent} (off : x.deed? e ≠ some .enabled) : (x.next e).Bars := by
  obtain ⟨⟨source, layout, position⟩, ⟨⟨name, enabled, state, stats, lastError⟩, queue⟩, shutdown⟩ := x
  cases e with
  | work answers =>
    cases position with
    | testingShutdown => cases shutdown <;> exact b
    | testingEnabled =>
      obtain rfl : enabled = false := b
      rfl
    | closingRefused reason | countingFailure reason | keepingReason reason => trivial
    | switchingOff => rfl
    | markingFailure | ending | ended => exact b
    | _ => exact b.elim
  | enable => exact absurd rfl off
  | disable =>
    cases position with
    | markingFailure | testingShutdown | testingEnabled | ending | ended => rfl
    | _ => exact b
  | drain n policy out => exact b
  | shutDown => exact b

/-- A failure bars the worker. -/
theorem bars_of_failure {x : LiveStream} {e : StreamEvent} {d : Deed} (done : x.deed? e = some d)
    (fails : d.failure?.isSome) : (x.next e).Bars := by
  obtain ⟨⟨source, layout, position⟩, ⟨⟨name, enabled, state, stats, lastError⟩, queue⟩, shutdown⟩ := x
  cases e with
  | work answers =>
    obtain ⟨opened, started, polled⟩ := answers
    cases position with
    | opening =>
      cases opened with
      | error reason => trivial
      | ok device =>
        obtain rfl : .opened (.ok device) = d := Option.some.inj done
        cases fails
    | starting device =>
      cases started with
      | error reason => trivial
      | ok started =>
        obtain rfl : .started (.ok started) = d := Option.some.inj done
        cases fails
    | _ => cases done <;> cases fails
  | drain n policy out =>
    obtain ⟨window, gone, rfl⟩ := drained_of_deed? done
    cases fails
  | _ => cases done <;> cases fails

/-- A worker that is barred opens nothing. -/
theorem Bars.not_opened {x : LiveStream} (b : x.Bars) {e : StreamEvent} (answer : Except DeviceError String) :
    x.deed? e ≠ some (.opened answer) := by
  intro done
  obtain ⟨⟨source, layout, position⟩, ⟨⟨name, enabled, state, stats, lastError⟩, queue⟩, shutdown⟩ := x
  cases e with
  | work answers =>
    cases position with
    | opening => exact b
    | _ => cases done
  | drain n policy out =>
    obtain ⟨window, gone, drained⟩ := drained_of_deed? done
    cases drained
  | _ => cases done

/-- Every event keeps the worker where the deeds bar it. -/
theorem bars_next {x : LiveStream} {deeds : List Deed} (b : Barred deeds → x.Bars) (e : StreamEvent)
    (barred : Barred (deeds ++ (x.deed? e).toList)) : (x.next e).Bars := by
  cases done : x.deed? e with
  | none =>
    rw [done, Option.toList_none, List.append_nil] at barred
    exact (b barred).next (by rw [done]; exact nofun)
  | some d =>
    rw [done] at barred
    rcases barred.of_concat with fails | ⟨barred, off⟩
    · exact bars_of_failure done fails
    · exact (b barred).next (by rw [done]; exact fun h => off (Option.some.inj h))

/-- Every event opens the source only where the deeds do not bar that. -/
theorem spaced_next {x : LiveStream} {deeds : List Deed} (s : Spaced deeds) (b : Barred deeds → x.Bars)
    (e : StreamEvent) : Spaced (deeds ++ (x.deed? e).toList) := by
  cases done : x.deed? e with
  | none => exact (List.append_nil deeds).symm ▸ s
  | some d =>
    refine s.concat ?_
    rintro answer rfl barred
    exact (b barred).not_opened answer done

end LiveStream

/-! ## The end -/

namespace Position

/-- How many steps of the worker may be left once the program shuts down. -/
def stepsLeft : Position → Nat
  | .testingEnabled => 14
  | .clearing => 13
  | .opening | .polling _ => 12
  | .starting _ | .pushing _ _ => 11
  | .announcing _ | .recording _ _ _ => 10
  | .checkingEnabled _ => 9
  | .checkingShutdown _ => 8
  | .closingRefused _ | .leaving _ => 7
  | .countingFailure _ | .announcingShutdown _ => 6
  | .keepingReason _ | .stopping _ => 5
  | .switchingOff | .closing => 4
  | .beginning | .markingFailure | .settling => 3
  | .testingShutdown => 2
  | .ending => 1
  | .ended => 0

theorem stepsLeft_le (p : Position) : p.stepsLeft ≤ 14 := by
  cases p <;> exact Nat.le_of_ble_eq_true rfl

theorem eq_ended_of_stepsLeft {p : Position} (h : p.stepsLeft = 0) : p = .ended := by
  cases p with
  | ended => rfl
  | _ => cases h

end Position

/-- Whether an event is a step of the worker. -/
def StreamEvent.isWork : StreamEvent → Bool
  | work _ => true
  | _ => false

namespace LiveStream

/-- Once the program shuts down, a step of the worker leaves it less to do. -/
theorem stepsLeft_work {x : LiveStream} (down : x.shutdown = true) (answers : Answers) :
    (x.next (.work answers)).worker.position.stepsLeft ≤ x.worker.position.stepsLeft - 1 := by
  obtain ⟨⟨source, layout, position⟩, ⟨⟨name, enabled, state, stats, lastError⟩, queue⟩, shutdown⟩ := x
  obtain ⟨opened, started, polled⟩ := answers
  obtain rfl : shutdown = true := down
  cases position with
  | testingEnabled => cases enabled <;> exact Nat.le_of_ble_eq_true rfl
  | checkingEnabled device => cases enabled <;> exact Nat.le_of_ble_eq_true rfl
  | opening => cases opened <;> exact Nat.le_of_ble_eq_true rfl
  | starting device => cases started <;> exact Nat.le_of_ble_eq_true rfl
  | polling device => cases polled <;> exact Nat.le_of_ble_eq_true rfl
  | _ => exact Nat.le_of_ble_eq_true rfl

/-- No event takes a shutdown back. -/
theorem shutdown_next {x : LiveStream} (down : x.shutdown = true) (e : StreamEvent) : (x.next e).shutdown = true := by
  cases e with
  | shutDown => rfl
  | _ => exact down

end LiveStream

namespace Chronicle

/-- Once the program shuts down, every step of the worker in whatever happens next leaves it less to do. -/
theorem stepsLeft_recordAll {r : Chronicle} (down : r.live.shutdown = true) (events : List StreamEvent) :
    (r.recordAll events).live.worker.position.stepsLeft
      ≤ r.live.worker.position.stepsLeft - events.countP StreamEvent.isWork := by
  induction events generalizing r with
  | nil => exact Nat.le_refl _
  | cons e rest ih =>
    have later := ih (r := r.record e) (LiveStream.shutdown_next down e)
    rw [recordAll_cons]
    cases e with
    | work answers =>
      have less : (r.record (.work answers)).live.worker.position.stepsLeft
          ≤ r.live.worker.position.stepsLeft - 1 := LiveStream.stepsLeft_work down answers
      rw [List.countP_cons_of_pos rfl]
      omega
    | _ =>
      rw [List.countP_cons_of_neg Bool.noConfusion]
      exact later

end Chronicle

/-! ## Every run -/

namespace Chronicle

/-- A run in which the calls, what is published, what is counted and what is barred go with where the worker is. -/
structure OnCourse (r : Chronicle) : Prop where
  orderly : r.live.worker.position.Orderly r.calls
  announces : r.live.Announces
  counts : r.live.Counts r.failures
  bars : Barred r.deeds → r.live.Bars
  spaced : Spaced r.deeds

theorem onCourse_ofName (source : String) (layout : Demux) (name : String) (enabled : Bool) (capacity : Nat) :
    (ofLive (.ofName source layout name enabled capacity)).OnCourse where
  orderly := ⟨[], [], rfl, rfl⟩
  announces := ⟨.head _, by rintro (⟨⟨⟩⟩ | ⟨⟨⟩⟩)⟩
  counts := ⟨rfl, rfl⟩
  bars := by
    rintro ⟨before, failed, since, cut, -⟩
    cases before <;> cases cut
  spaced := by
    intro before answer after cut
    cases before <;> cases cut

/-- Every event keeps a run on course. -/
theorem OnCourse.record {r : Chronicle} (c : r.OnCourse) (e : StreamEvent) : (r.record e).OnCourse where
  orderly := by
    rw [calls_record]
    exact LiveStream.orderly_next c.orderly e
  announces := (LiveStream.announces_next c.announces e).1
  counts := by
    rw [failures_record]
    exact LiveStream.counts_next c.counts e
  bars := LiveStream.bars_next c.bars e
  spaced := LiveStream.spaced_next c.spaced c.bars e

/-- Every run stays on course. -/
theorem OnCourse.recordAll {r : Chronicle} (c : r.OnCourse) (events : List StreamEvent) : (r.recordAll events).OnCourse :=
  induct (P := OnCourse) (fun _ e c => c.record e) c events

/-- Where no attempt is under way, whole attempts have been made. -/
theorem OnCourse.whole {r : Chronicle} (c : r.OnCourse)
    (outside : ∀ current, r.live.worker.position.UnderWay current → current = []) :
    ∃ attempts : List Attempt, r.calls = attempts.flatMap Attempt.calls
      ∧ attempts.filterMap Attempt.failure? = r.failures := by
  obtain ⟨attempts, current, calls, under⟩ := c.orderly
  obtain rfl := outside current under
  rw [List.append_nil] at calls
  exact ⟨attempts, calls, by rw [failures_eq, calls, filterMap_flatMap_calls]⟩

/-- What a stream and its worker keep to. -/
structure KeepsOrder (r : Chronicle) : Prop where
  /-- The calls are whole attempts one after the other and the beginning of one more. -/
  attempts : ∃ (attempts : List Attempt) (current : List Deed), r.calls = attempts.flatMap Attempt.calls ++ current
    ∧ ∃ a : Attempt, current <+: a.calls ∧ current ≠ a.calls
  /-- Every event leaves the published state or publishes one that may follow. -/
  moves : ∀ e, r.live.Succeeds (r.record e).live
  /-- Before its outer test the worker has made whole attempts, and the failed ones are counted, the last reason kept. -/
  counted : r.live.worker.position = .testingShutdown → ∃ attempts : List Attempt,
    r.calls = attempts.flatMap Attempt.calls
      ∧ r.live.stream.control.stats.openFailures = (attempts.filterMap Attempt.failure?).length
      ∧ r.live.stream.control.lastError = lastReason (attempts.filterMap Attempt.failure?)
  /-- Between a failure and the next time that the source is opened the stream is switched on. -/
  spaced : ∀ before failed since answer after, r.deeds = before ++ failed :: since ++ .opened answer :: after →
    failed.failure?.isSome → .enabled ∈ since
  /-- Once the program shuts down the worker ends within fourteen steps, whatever happens in between. -/
  ends : r.live.shutdown = true → ∀ later : List StreamEvent, 14 ≤ later.countP StreamEvent.isWork →
    (r.recordAll later).live.worker.position = .ended
  /-- A worker ends only when the program shuts down. It has made whole attempts then, and its stream is stopped. -/
  finished : r.live.worker.position = .ended → r.live.shutdown = true ∧ r.live.stream.control.state = .stopped
    ∧ ∃ attempts : List Attempt, r.calls = attempts.flatMap Attempt.calls

/-- A run on course keeps order. -/
theorem OnCourse.keepsOrder {r : Chronicle} (c : r.OnCourse) : r.KeepsOrder where
  attempts := by
    obtain ⟨attempts, current, calls, under⟩ := c.orderly
    exact ⟨attempts, current, calls, under.unfinished⟩
  moves e := (LiveStream.announces_next c.announces e).2
  counted := by
    intro outside
    have whole := c.whole (by rw [outside]; exact fun _ h => h)
    have counts := c.counts
    rw [LiveStream.Counts, outside] at counts
    obtain ⟨attempts, calls, failures⟩ := whole
    rw [← failures] at counts
    exact ⟨attempts, calls, counts⟩
  spaced := by
    intro before failed since answer after cut fails
    refine Classical.byContradiction fun off => ?_
    exact c.spaced _ answer after cut ⟨before, failed, since, rfl, fails, off⟩
  ends := by
    intro down later enough
    refine Position.eq_ended_of_stepsLeft ?_
    have left := stepsLeft_recordAll down later
    have bound := r.live.worker.position.stepsLeft_le
    omega
  finished := by
    intro ended
    have state := c.announces.state
    have shutdown := c.announces.shutdown
    rw [ended] at state shutdown
    obtain ⟨attempts, calls, -⟩ := c.whole (by rw [ended]; exact fun _ h => h)
    exact ⟨shutdown (.inr rfl), List.mem_singleton.1 state, attempts, calls⟩

end Chronicle

/-- **A worker keeps order**, at every moment of every run of a stream, whatever its source answers and whoever switches
the stream. -/
theorem worker_keeps_order (source : String) (layout : Demux) (name : String) (enabled : Bool) (capacity : Nat)
    (events : List StreamEvent) :
    ((Chronicle.ofLive (.ofName source layout name enabled capacity)).recordAll events).KeepsOrder :=
  ((Chronicle.onCourse_ofName source layout name enabled capacity).recordAll events).keepsOrder

end Panadapter
