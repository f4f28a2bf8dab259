import Panadapter.Proofs.Stream.Ledger

/-!
# Samples of earlier sessions

The samples of a run are numbered in the order in which they arrive, across all sessions. The queue holds the last ones
(`Chronicle.Balanced.queue_eq`), and every session has those from its start on.

* At a later time the queue still holds samples of sessions that were over at an earlier one exactly if no session was
  under way then and the queue has not been emptied since (`Chronicle.Balanced.stale_iff`).
-/

namespace Panadapter

namespace Deed

/-- The samples that arrive on the queue. -/
def arriving : Deed → List Sample
  | pushed new _ => new
  | _ => []

/-- Whether a deed begins a session. -/
def clears : Deed → Bool
  | cleared _ => true
  | _ => false

end Deed

namespace Ledger

/-- All samples that have arrived, oldest first. -/
def arrivals (l : Ledger) : List Sample := l.sessions.flatMap Session.arrived

/-- The number of the first sample of the session whose samples are queued. -/
def sessionStart (l : Ledger) : Nat := (l.past.flatMap Session.arrived).length

variable (l : Ledger)

theorem arrivals_eq : l.arrivals = l.past.flatMap Session.arrived ++ l.current.arrived := by
  simp [arrivals, sessions]

theorem sessionStart_le : l.sessionStart ≤ l.arrivals.length := by
  rw [arrivals_eq, List.length_append, sessionStart]
  omega

theorem arrivals_enter (d : Deed) : (l.enter d).arrivals = l.arrivals ++ d.arriving := by
  cases d with
  | polled answer => cases answer <;> simp [arrivals_eq, enter, Deed.arriving, Session.poll]
  | _ => simp [arrivals_eq, enter, Deed.arriving]

theorem sessionStart_enter (d : Deed) :
    (l.enter d).sessionStart = if d.clears then l.arrivals.length else l.sessionStart := by
  cases d with
  | polled answer => cases answer <;> rfl
  | cleared gone => simp [sessionStart, arrivals_eq, enter, Deed.clears]
  | _ => rfl

theorem arrivals_enterAll (deeds : List Deed) :
    (deeds.foldl enter l).arrivals = l.arrivals ++ deeds.flatMap Deed.arriving := by
  induction deeds generalizing l with
  | nil => simp
  | cons d rest ih => rw [List.foldl_cons, ih, arrivals_enter, List.flatMap_cons, List.append_assoc]

/-- The start of the session never moves back. -/
theorem sessionStart_le_enterAll (deeds : List Deed) : l.sessionStart ≤ (deeds.foldl enter l).sessionStart := by
  induction deeds generalizing l with
  | nil => exact Nat.le_refl _
  | cons d rest ih =>
    have later := ih (l.enter d)
    have next := l.sessionStart_enter d
    have le := l.sessionStart_le
    rw [List.foldl_cons]
    split at next <;> omega

/-- A session that begins has only samples that arrive from then on. -/
theorem arrivals_le_sessionStart {deeds : List Deed} (cleared : deeds.any Deed.clears = true) :
    l.arrivals.length ≤ (deeds.foldl enter l).sessionStart := by
  induction deeds generalizing l with
  | nil => cases cleared
  | cons d rest ih =>
    rw [List.foldl_cons]
    cases clears : d.clears with
    | true =>
      have next := l.sessionStart_enter d
      rw [clears, if_pos rfl] at next
      rw [← next]
      exact sessionStart_le_enterAll _ rest
    | false =>
      rw [List.any_cons, clears, Bool.false_or] at cleared
      have grown := congrArg List.length (l.arrivals_enter d)
      rw [List.length_append] at grown
      exact Nat.le_trans (by omega) (ih (l.enter d) cleared)

end Ledger

/-- Whether samples of a session can still arrive where the worker is. -/
def Position.inSession : Position → Bool
  | opening | starting _ | announcing _ | checkingEnabled _ | checkingShutdown _ | polling _ | pushing _ _
  | recording _ _ _ => true
  | _ => false

/-- Outside a session nothing arrives before the queue is emptied. -/
theorem LiveStream.idle_next {x : LiveStream} (idle : x.worker.position.inSession = false) {e : StreamEvent}
    (kept : ∀ d ∈ x.deed? e, d.clears = false) :
    (x.next e).worker.position.inSession = false ∧ ∀ d ∈ x.deed? e, d.arriving = [] := by
  obtain ⟨⟨source, layout, position⟩, ⟨⟨name, enabled, state, stats, lastError⟩, queue⟩, shutdown⟩ := x
  cases e with
  | work answers =>
    cases position with
    | clearing => cases kept _ rfl
    | testingShutdown => cases shutdown <;> exact ⟨rfl, by rintro _ ⟨⟩⟩
    | testingEnabled => cases enabled <;> exact ⟨rfl, by rintro _ ⟨⟩⟩
    | leaving device => cases shutdown <;> exact ⟨rfl, by rintro _ ⟨⟩⟩
    | opening | starting | announcing | checkingEnabled | checkingShutdown | polling | pushing | recording => cases idle
    | _ => exact ⟨rfl, by rintro _ ⟨⟩ <;> rfl⟩
  | drain n policy out =>
    refine ⟨idle, ?_⟩
    intro d done
    obtain ⟨window, gone, rfl⟩ := drained_of_deed? done
    rfl
  | _ => exact ⟨idle, by rintro _ ⟨⟩ <;> rfl⟩

namespace Chronicle

/-- Whether a session is under way. -/
def underWay (r : Chronicle) : Bool := r.live.worker.position.inSession

/-- How often the queue has been emptied. -/
def clearings (r : Chronicle) : Nat := r.deeds.countP Deed.clears

/-- How many samples have arrived in sessions that are over. -/
def overSamples (r : Chronicle) : Nat := if r.underWay then r.ledger.sessionStart else r.ledger.arrivals.length

/-- The number of the first queued sample. -/
def firstQueued (r : Chronicle) : Nat := r.ledger.arrivals.length - r.live.stream.queue.size

variable {r : Chronicle}

theorem clearings_record (e : StreamEvent) :
    (r.record e).clearings = r.clearings + (r.live.deed? e).toList.countP Deed.clears :=
  List.countP_append

theorem clearings_le_recordAll (events : List StreamEvent) : r.clearings ≤ (r.recordAll events).clearings := by
  obtain ⟨later, deeds⟩ := r.deeds_recordAll events
  rw [clearings, clearings, deeds, List.countP_append]
  omega

theorem arrivals_record (e : StreamEvent) :
    (r.record e).ledger.arrivals = r.ledger.arrivals ++ (r.live.deed? e).toList.flatMap Deed.arriving := by
  rw [ledger_record, Ledger.arrivals_enterAll]

/-- Outside a session nothing arrives before the queue is emptied, whatever happens. -/
theorem arrivals_recordAll_of_idle (idle : r.underWay = false) (events : List StreamEvent)
    (same : (r.recordAll events).clearings = r.clearings) :
    (r.recordAll events).ledger.arrivals = r.ledger.arrivals := by
  induction events generalizing r with
  | nil => rfl
  | cons e rest ih =>
    have first := clearings_record (r := r) e
    have others := clearings_le_recordAll (r := r.record e) rest
    rw [recordAll_cons] at same ⊢
    have none : (r.live.deed? e).toList.countP Deed.clears = 0 := by omega
    have kept : ∀ d ∈ r.live.deed? e, d.clears = false := by
      intro d done
      have unlike := List.countP_eq_zero.1 none d (Option.mem_toList.2 done)
      exact Bool.eq_false_iff.2 unlike
    obtain ⟨idle', quiet⟩ := LiveStream.idle_next idle kept
    have nothing : (r.live.deed? e).toList.flatMap Deed.arriving = [] :=
      List.flatMap_eq_nil_iff.2 fun d done => quiet d (Option.mem_toList.1 done)
    rw [ih (r := r.record e) idle' (by omega), arrivals_record, nothing, List.append_nil]

theorem ledger_recordAll {events : List StreamEvent} {later : List Deed}
    (h : (r.recordAll events).deeds = r.deeds ++ later) :
    (r.recordAll events).ledger = later.foldl Ledger.enter r.ledger := by
  rw [ledger, h]
  exact Ledger.ofDeeds_append _ _

theorem sessionStart_le_recordAll (events : List StreamEvent) :
    r.ledger.sessionStart ≤ (r.recordAll events).ledger.sessionStart := by
  obtain ⟨later, deeds⟩ := r.deeds_recordAll events
  rw [ledger_recordAll deeds]
  exact r.ledger.sessionStart_le_enterAll later

/-- If the queue is emptied in between, the session at the end has nothing that had arrived at the beginning. -/
theorem arrivals_le_sessionStart {events : List StreamEvent} (other : (r.recordAll events).clearings ≠ r.clearings) :
    r.ledger.arrivals.length ≤ (r.recordAll events).ledger.sessionStart := by
  obtain ⟨later, deeds⟩ := r.deeds_recordAll events
  rw [clearings, clearings, deeds, List.countP_append] at other
  have some : 0 < later.countP Deed.clears := by omega
  obtain ⟨d, mem, clears⟩ := List.countP_pos_iff.1 some
  rw [ledger_recordAll deeds]
  exact r.ledger.arrivals_le_sessionStart (List.any_eq_true.2 ⟨d, mem, clears⟩)

namespace Balanced

variable {layout : Demux} (b : r.Balanced layout)

include b

/-- What is queued belongs to the session whose samples are queued, behind all that has gone from it. -/
theorem firstQueued_eq : r.firstQueued = r.ledger.sessionStart + r.ledger.current.gone.length := by
  have count := congrArg List.length b.balances.held
  rw [List.length_append, SampleQueue.length_toList] at count
  rw [firstQueued, Ledger.arrivals_eq, Ledger.sessionStart, List.length_append]
  omega

theorem size_le_arrivals : r.live.stream.queue.size ≤ r.ledger.arrivals.length := by
  have count := congrArg List.length b.balances.held
  rw [List.length_append, SampleQueue.length_toList] at count
  rw [Ledger.arrivals_eq, List.length_append]
  omega

/-- The queue holds the last samples that have arrived. -/
theorem queue_eq : r.live.stream.queue.toList = r.ledger.arrivals.drop r.firstQueued := by
  rw [b.firstQueued_eq, Ledger.arrivals_eq, Ledger.sessionStart, List.drop_append, b.balances.held]
  simp

/-- **Stale samples.** Among the first `n` queued samples of a later time there are some of sessions that are over now
exactly if no session is under way now and the queue is not emptied in between. -/
theorem stale_iff (events : List StreamEvent) {n : Nat} (pos : 0 < n)
    (held : n ≤ (r.recordAll events).live.stream.queue.size) :
    (∃ k < n, (r.recordAll events).firstQueued + k < r.overSamples)
      ↔ r.underWay = false ∧ (r.recordAll events).clearings = r.clearings := by
  have later := b.recordAll events
  have start := later.firstQueued_eq
  have all := later.size_le_arrivals
  constructor
  · rintro ⟨k, -, stale⟩
    cases underWay : r.underWay with
    | true =>
      have moved := sessionStart_le_recordAll (r := r) events
      rw [overSamples, underWay, if_pos rfl] at stale
      omega
    | false =>
      refine ⟨rfl, Classical.byContradiction fun other => ?_⟩
      have begun := arrivals_le_sessionStart other
      rw [overSamples, underWay, if_neg Bool.false_ne_true] at stale
      omega
  · rintro ⟨idle, same⟩
    have arrivals := congrArg List.length (arrivals_recordAll_of_idle idle events same)
    refine ⟨0, pos, ?_⟩
    rw [overSamples, idle, if_neg Bool.false_ne_true, firstQueued]
    omega

end Balanced

end Chronicle

end Panadapter
