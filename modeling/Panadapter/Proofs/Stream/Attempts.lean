import Panadapter.Proofs.Stream.Interleaving

/-!
# Attempts to acquire

An attempt opens the source, starts it, polls it and stops it, or fails on the way. `Attempt.calls` are the calls that it
makes of the source.

* The calls of a run are whole attempts one after the other and the beginning of one more, which goes with where the
  worker is (`Position.Orderly`). Every event keeps that (`LiveStream.orderly_next`).
* The failures of a run are those of its attempts (`Chronicle.failures_eq`, `filterMap_flatMap_calls`).
-/

namespace Panadapter

/-! ## Attempts -/

/-- What became of an attempt to acquire: the source could not be opened, could not be started, or was polled. -/
inductive Attempt where
  | notOpened (reason : DeviceError)
  | notStarted (device : String) (reason : DeviceError)
  | session (device : String) (polls : List (Option (Array Int16)))

/-- The calls of a session until its source is stopped. -/
def Deed.ofSession (device : String) (polls : List (Option (Array Int16))) : List Deed :=
  opened (.ok device) :: started (.ok ()) :: polls.map polled

/-- The calls of an attempt. A source that starts is stopped once and then closed. -/
def Attempt.calls : Attempt → List Deed
  | notOpened reason => [.opened (.error reason)]
  | notStarted device reason => [.opened (.ok device), .started (.error reason), .closed]
  | session device polls => Deed.ofSession device polls ++ [.stopped, .closed]

namespace Deed

/-- Whether a deed is a call of the source. -/
def isCall : Deed → Bool
  | opened _ | started _ | polled _ | stopped | closed => true
  | _ => false

/-- Why an attempt failed, if a deed says so. -/
def failure? : Deed → Option DeviceError
  | opened (.error reason) => some reason
  | started (.error reason) => some reason
  | _ => none

end Deed

namespace Chronicle

/-- The calls of the source in a run. -/
def calls (r : Chronicle) : List Deed := r.deeds.filter Deed.isCall

/-- The failures of a run, in order. -/
def failures (r : Chronicle) : List DeviceError := r.deeds.filterMap Deed.failure?

theorem calls_record (r : Chronicle) (e : StreamEvent) :
    (r.record e).calls = r.calls ++ (r.live.deed? e).toList.filter Deed.isCall :=
  List.filter_append ..

/-- The failures of a run are in its calls. -/
theorem failures_eq (r : Chronicle) : r.failures = r.calls.filterMap Deed.failure? := by
  have called : Deed.failure? = fun d => if d.isCall then d.failure? else none := by
    funext d
    cases d <;> rfl
  rw [failures, calls, List.filterMap_filter, ← called]

theorem failures_record (r : Chronicle) (e : StreamEvent) :
    (r.record e).failures = r.failures ++ (r.live.deed? e).toList.filterMap Deed.failure? :=
  List.filterMap_append

end Chronicle

/-- Why an attempt failed, if it did. -/
def Attempt.failure? : Attempt → Option DeviceError
  | notOpened reason | notStarted _ reason => some reason
  | session _ _ => none

/-- The failure of an attempt is in its calls, once. -/
theorem Attempt.filterMap_calls (a : Attempt) : a.calls.filterMap Deed.failure? = a.failure?.toList := by
  cases a with
  | notOpened reason => rfl
  | notStarted device reason => rfl
  | session device polls =>
    have silent : (polls.map Deed.polled).filterMap Deed.failure? = [] := by
      rw [List.filterMap_map]
      exact List.filterMap_eq_nil_iff.2 fun _ _ => rfl
    rw [calls, Deed.ofSession, List.filterMap_append]
    simp only [List.filterMap_cons, Deed.failure?, silent]
    rfl

theorem filterMap_flatMap_calls (attempts : List Attempt) :
    (attempts.flatMap Attempt.calls).filterMap Deed.failure? = attempts.filterMap Attempt.failure? := by
  induction attempts with
  | nil => rfl
  | cons a rest ih =>
    rw [List.flatMap_cons, List.filterMap_append, ih, a.filterMap_calls]
    cases h : a.failure? with
    | none => rw [List.filterMap_cons_none h]; rfl
    | some reason => rw [List.filterMap_cons_some h]; rfl

/-- The calls of the attempt that is under way where the worker is. -/
def Position.UnderWay : Position → List Deed → Prop
  | .starting device, calls => calls = [.opened (.ok device)]
  | .closingRefused reason, calls => ∃ device, calls = [.opened (.ok device), .started (.error reason)]
  | .announcing device, calls | .checkingEnabled device, calls | .checkingShutdown device, calls
  | .polling device, calls | .pushing device _, calls | .recording device _ _, calls | .leaving device, calls
  | .announcingShutdown device, calls | .stopping device, calls =>
    ∃ polls, calls = Deed.ofSession device polls
  | .closing, calls => ∃ device polls, calls = Deed.ofSession device polls ++ [.stopped]
  | _, calls => calls = []

/-- Whole attempts, and the calls of the one that is under way. -/
def Position.Orderly (p : Position) (calls : List Deed) : Prop :=
  ∃ (attempts : List Attempt) (current : List Deed), calls = attempts.flatMap Attempt.calls ++ current ∧ p.UnderWay current

namespace Position.Orderly

variable {p p' : Position} {calls : List Deed}

/-- The attempt goes on. -/
theorem more (o : p.Orderly calls) (later : List Deed)
    (h : ∀ current, p.UnderWay current → p'.UnderWay (current ++ later)) : p'.Orderly (calls ++ later) := by
  obtain ⟨attempts, current, rfl, under⟩ := o
  exact ⟨attempts, current ++ later, by rw [List.append_assoc], h current under⟩

/-- Nothing is called. -/
theorem still (o : p.Orderly calls) (h : ∀ current, p.UnderWay current → p'.UnderWay current) :
    p'.Orderly (calls ++ []) :=
  o.more [] fun current under => (List.append_nil current).symm ▸ h current under

/-- The attempt comes to its end. -/
theorem finish (o : p.Orderly calls) (last : Deed)
    (h : ∀ current, p.UnderWay current → ∃ a : Attempt, current ++ [last] = a.calls) (rest : p'.UnderWay []) :
    p'.Orderly (calls ++ [last]) := by
  obtain ⟨attempts, current, rfl, under⟩ := o
  obtain ⟨a, whole⟩ := h current under
  exact ⟨attempts ++ [a], [], by simp [← whole], rest⟩

end Position.Orderly

namespace LiveStream

/-- A step of the worker goes on with the attempt that is under way, or finishes it. -/
theorem orderly_work {x : LiveStream} {calls : List Deed} (o : x.worker.position.Orderly calls) (answers : Answers) :
    (x.next (.work answers)).worker.position.Orderly
      (calls ++ (x.deed? (.work answers)).toList.filter Deed.isCall) := by
  obtain ⟨⟨source, layout, position⟩, ⟨⟨name, enabled, state, stats, lastError⟩, queue⟩, shutdown⟩ := x
  obtain ⟨opened, started, polled⟩ := answers
  cases position with
  | opening =>
    cases opened with
    | error reason =>
      refine o.finish (.opened (.error reason)) ?_ rfl
      intro current h
      obtain rfl : current = [] := h
      exact ⟨.notOpened reason, rfl⟩
    | ok device =>
      refine o.more [.opened (.ok device)] ?_
      intro current h
      obtain rfl : current = [] := h
      rfl
  | starting device =>
    cases started with
    | error reason =>
      refine o.more [.started (.error reason)] ?_
      intro current h
      obtain rfl : current = [.opened (.ok device)] := h
      exact ⟨device, rfl⟩
    | ok started =>
      refine o.more [.started (.ok started)] ?_
      intro current h
      obtain rfl : current = [.opened (.ok device)] := h
      exact ⟨[], rfl⟩
  | closingRefused reason =>
    refine o.finish .closed ?_ rfl
    rintro _ ⟨device, rfl⟩
    exact ⟨.notStarted device reason, rfl⟩
  | polling device =>
    have goes : ∀ current, (∃ polls, current = Deed.ofSession device polls) →
        ∃ polls', current ++ [.polled polled] = Deed.ofSession device polls' := by
      rintro _ ⟨polls, rfl⟩
      exact ⟨polls ++ [polled], by simp [Deed.ofSession]⟩
    cases polled with
    | none => exact o.more [.polled none] goes
    | some words => exact o.more [.polled (some words)] goes
  | stopping device =>
    refine o.more [.stopped] ?_
    rintro _ ⟨polls, rfl⟩
    exact ⟨device, polls, rfl⟩
  | closing =>
    refine o.finish .closed ?_ rfl
    rintro _ ⟨device, polls, rfl⟩
    exact ⟨.session device polls, List.append_assoc ..⟩
  -- At the other positions nothing is called, and the attempt under way is the same on both sides of a test.
  | testingShutdown => cases shutdown <;> exact o.still fun _ h => h
  | testingEnabled => cases enabled <;> exact o.still fun _ h => h
  | checkingEnabled device => cases enabled <;> exact o.still fun _ h => h
  | checkingShutdown device => cases shutdown <;> exact o.still fun _ h => h
  | leaving device => cases shutdown <;> exact o.still fun _ h => h
  | _ => exact o.still fun _ h => h

/-- Every event keeps the order of the calls. -/
theorem orderly_next {x : LiveStream} {calls : List Deed} (o : x.worker.position.Orderly calls) (e : StreamEvent) :
    (x.next e).worker.position.Orderly (calls ++ (x.deed? e).toList.filter Deed.isCall) := by
  cases e with
  | work answers => exact orderly_work o answers
  | drain n policy out =>
    have silent : (x.deed? (.drain n policy out)).toList.filter Deed.isCall = [] := by
      cases done : x.deed? (.drain n policy out) with
      | none => rfl
      | some d =>
        obtain ⟨window, gone, rfl⟩ := drained_of_deed? done
        rfl
    rw [silent]
    exact o.still fun _ h => h
  | _ => exact o.still fun _ h => h

end LiveStream

/-- An attempt under way is a whole one that is not over yet. -/
theorem Position.UnderWay.unfinished {p : Position} {current : List Deed} (under : p.UnderWay current) :
    ∃ a : Attempt, current <+: a.calls ∧ current ≠ a.calls := by
  have session : ∀ device polls, ∃ a : Attempt, Deed.ofSession device polls <+: a.calls
      ∧ Deed.ofSession device polls ≠ a.calls := by
    intro device polls
    exact ⟨.session device polls, List.prefix_append _ _, by simp [Attempt.calls]⟩
  cases p with
  | starting device => exact ⟨.session device [], under ▸ ⟨_, rfl⟩, by rw [under]; simp [Attempt.calls, Deed.ofSession]⟩
  | closingRefused reason =>
    obtain ⟨device, rfl⟩ := under
    exact ⟨.notStarted device reason, ⟨[.closed], rfl⟩, by simp [Attempt.calls]⟩
  | closing =>
    obtain ⟨device, polls, rfl⟩ := under
    exact ⟨.session device polls, ⟨[.closed], List.append_assoc ..⟩, by simp [Attempt.calls]⟩
  | announcing device | checkingEnabled device | checkingShutdown device | polling device | pushing device buffer
  | recording device samples dropped | leaving device | announcingShutdown device | stopping device =>
    obtain ⟨polls, rfl⟩ := under
    exact session device polls
  | _ =>
    obtain rfl : current = [] := under
    exact ⟨.session "" [], List.nil_prefix, by simp [Attempt.calls]⟩

end Panadapter
