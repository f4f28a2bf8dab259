import Mathlib.Algebra.Ring.Nat
import Panadapter.Proofs.Stream.Interleaving

/-!
# Where the samples of a stream go

A session begins when the worker empties the queue. The `Ledger` of a run has one account for each session, with the
buffers that were polled, the samples that arrived on the queue, and the samples that left it, in order and with their
fate. It is kept from the deeds of the run alone.

* Every event keeps the ledger balanced: what arrived is what left and then what is queued (`Balanced.record`).
* Hence at every moment of every run both channels hold the same last part of one session, every window is a slice of a
  session, and every sample is in exactly one place (`samples_accounted_for`).
-/

namespace Panadapter

/-- How samples leave the queue: given out by a drain, discarded along with a window, pushed out by newer ones, or
cleared at the beginning of the next session. -/
inductive Fate where
  | given
  | discarded
  | dropped
  | cleared
  deriving DecidableEq, Repr

/-- Samples that left the queue together. -/
structure Departure where
  fate : Fate
  samples : List Sample

/-- The account of a session: the buffers polled from the source, the samples put on the queue, and those gone from it,
all in order. -/
structure Session where
  polled : List (Array Int16) := []
  arrived : List Sample := []
  departed : List Departure := []

namespace Session

/-- One more buffer from the source. -/
def poll (s : Session) (words : Array Int16) : Session := { s with polled := s.polled ++ [words] }

/-- More samples on the queue. -/
def arrive (s : Session) (new : List Sample) : Session := { s with arrived := s.arrived ++ new }

/-- More departures. -/
def depart (s : Session) (more : List Departure) : Session := { s with departed := s.departed ++ more }

/-- All samples that have left the queue, in the order in which they left. -/
def gone (s : Session) : List Sample := s.departed.flatMap Departure.samples

/-- How many samples have met a fate. -/
def lost (s : Session) (fate : Fate) : Nat :=
  ((s.departed.filter (·.fate = fate)).map (·.samples.length)).sum

section

variable (s : Session) (words : Array Int16) (new : List Sample) (more : List Departure) (fate : Fate)

@[simp] theorem gone_arrive : (s.arrive new).gone = s.gone := rfl

@[simp] theorem gone_depart : (s.depart more).gone = s.gone ++ more.flatMap Departure.samples := by
  simp [gone, depart]

@[simp] theorem arrived_arrive : (s.arrive new).arrived = s.arrived ++ new := rfl

@[simp] theorem arrived_depart : (s.depart more).arrived = s.arrived := rfl

@[simp] theorem polled_arrive : (s.arrive new).polled = s.polled := rfl

@[simp] theorem polled_depart : (s.depart more).polled = s.polled := rfl

@[simp] theorem lost_new : lost {} fate = 0 := rfl

@[simp] theorem lost_poll : (s.poll words).lost fate = s.lost fate := rfl

@[simp] theorem lost_arrive : (s.arrive new).lost fate = s.lost fate := rfl

theorem lost_depart :
    (s.depart more).lost fate = s.lost fate + ((more.filter (·.fate = fate)).map (·.samples.length)).sum := by
  simp [lost, depart]

end

end Session

/-- The accounts of a run: the sessions that are over, oldest first, and the one whose samples are queued. -/
structure Ledger where
  past : List Session
  current : Session

namespace Ledger

/-- A ledger without an entry. -/
def empty : Ledger := ⟨[], {}⟩

/-- One deed entered. -/
def enter (l : Ledger) : Deed → Ledger
  | .cleared gone => ⟨l.past ++ [l.current.depart [⟨.cleared, gone⟩]], {}⟩
  | .polled (some words) => { l with current := l.current.poll words }
  | .pushed new gone => { l with current := (l.current.arrive new).depart [⟨.dropped, gone⟩] }
  | .drained window gone => { l with current := l.current.depart [⟨.given, window⟩, ⟨.discarded, gone⟩] }
  | _ => l

/-- The ledger of deeds in order. -/
def ofDeeds (deeds : List Deed) : Ledger := deeds.foldl enter empty

/-- Every account, oldest first. -/
def sessions (l : Ledger) : List Session := l.past ++ [l.current]

/-- How many samples of all sessions have been pushed out. -/
def dropped (l : Ledger) : Nat := (l.sessions.map (·.lost .dropped)).sum

@[simp] theorem ofDeeds_nil : ofDeeds [] = empty := rfl

theorem dropped_eq (l : Ledger) : l.dropped = (l.past.map (·.lost .dropped)).sum + l.current.lost .dropped := by
  simp [dropped, sessions]

theorem ofDeeds_append (deeds later : List Deed) : ofDeeds (deeds ++ later) = later.foldl enter (ofDeeds deeds) :=
  List.foldl_append

/-- Other deeds do not concern the ledger. -/
theorem enter_of_moves_eq_false (l : Ledger) {d : Deed} (h : d.moves = false) : l.enter d = l := by
  cases d with
  | polled answer =>
    cases answer with
    | none => rfl
    | some words => cases h
  | cleared | pushed | drained => cases h
  | _ => rfl

end Ledger

namespace Chronicle

/-- The ledger of a run. -/
def ledger (r : Chronicle) : Ledger := .ofDeeds r.deeds

theorem ledger_record (r : Chronicle) (e : StreamEvent) :
    (r.record e).ledger = (r.live.deed? e).toList.foldl Ledger.enter r.ledger :=
  Ledger.ofDeeds_append _ _

end Chronicle

/-! ## The balance -/

/-- A drain cuts the queue in three: the window, what is discarded along with it, and what stays. -/
theorem SampleQueue.Drains.split {q rest : SampleQueue} {n : Nat} {policy : DrainPolicy} {out filled : Channels}
    (d : q.Drains n policy out filled rest) :
    q.toList = q.toList.take n ++ LiveStream.discardedBy q rest n ++ rest.toList := by
  have le := policy.le_discarded d.le_size
  have le_size := policy.discarded_le n q.size
  have missing : q.size - n - rest.size = policy.discarded n q.size - n := by
    rw [d.size_rest]
    omega
  rw [LiveStream.discardedBy, missing, d.toList_rest, ← List.take_add, Nat.add_sub_cancel' le, List.take_append_drop]

/-- A ledger that balances against a queue and the samples in the hand of the worker. A session that is over has
nothing left in either. -/
structure Ledger.Balances (l : Ledger) (layout : Demux) (q : SampleQueue) (inHand : List Sample) : Prop where
  held : l.current.arrived = l.current.gone ++ q.toList
  settled : ∀ s ∈ l.past, s.arrived = s.gone
  parted : l.current.polled.flatMap layout.samples = l.current.arrived ++ inHand
  partedBefore : ∀ s ∈ l.past, s.polled.flatMap layout.samples = s.arrived
  counted : q.dropped = l.dropped

namespace Ledger.Balances

variable {l : Ledger} {layout : Demux} {q : SampleQueue} {inHand : List Sample}

/-- The queue emptied: the session is over, and what was queued is cleared. -/
theorem clear (b : l.Balances layout q []) : (l.enter (.cleared q.toList)).Balances layout q.clear [] where
  held := by simp [enter, Session.gone]
  settled := by
    intro s h
    rcases List.mem_append.1 h with h | h
    · exact b.settled s h
    · obtain rfl := List.mem_singleton.1 h
      simpa using b.held
  parted := rfl
  partedBefore := by
    intro s h
    rcases List.mem_append.1 h with h | h
    · exact b.partedBefore s h
    · obtain rfl := List.mem_singleton.1 h
      simpa using b.parted
  counted := by simpa [dropped_eq, enter, Session.lost_depart] using b.counted

/-- A buffer polled and parted. -/
theorem part (b : l.Balances layout q []) (words : Array Int16) :
    (l.enter (.polled (some words))).Balances layout q (layout.samples words) where
  held := b.held
  settled := b.settled
  parted := by
    have before := b.parted
    rw [List.append_nil] at before
    simp [enter, Session.poll, before]
  partedBefore := b.partedBefore
  counted := by simpa [dropped_eq, enter] using b.counted

/-- The samples in hand put on the queue: the oldest ones that do not fit any more are dropped. -/
theorem push {buffer : Channels} (b : l.Balances layout q buffer.toList) :
    (l.enter (.pushed buffer.toList ((q.toList ++ buffer.toList).take (q.overflow buffer.size)))).Balances layout
      (q.push buffer) [] where
  held := by
    simp only [enter, Session.gone_depart, Session.arrived_depart, Session.gone_arrive, Session.arrived_arrive,
      List.flatMap_cons, List.flatMap_nil, List.append_nil, SampleQueue.toList_push, List.append_assoc,
      List.take_append_drop]
    rw [b.held, List.append_assoc]
  settled := b.settled
  parted := by simpa [enter] using b.parted
  partedBefore := b.partedBefore
  counted := by
    have overflow : min (q.overflow buffer.size) (q.size + buffer.size) = q.overflow buffer.size := by
      rw [SampleQueue.overflow_eq]
      omega
    simp [dropped_eq, enter, Session.lost_depart, overflow, b.counted, Nat.add_assoc]

/-- A window taken: it is given out, and what goes along with it is discarded. -/
theorem drain {n : Nat} {policy : DrainPolicy} {out filled : Channels} {rest : SampleQueue}
    (b : l.Balances layout q inHand) (taken : q.drainWindow n policy out = (true, filled, rest)) :
    (l.enter (.drained (filled.toList.take n) (LiveStream.discardedBy q rest n))).Balances layout rest inHand where
  held := by
    have d := SampleQueue.drains_of_drainWindow taken
    have cut := d.split
    rw [← d.take_toList_filled] at cut
    simp only [enter, Session.arrived_depart, Session.gone_depart, List.flatMap_cons, List.flatMap_nil, List.append_nil]
    rw [b.held, List.append_assoc, ← cut]
  settled := b.settled
  parted := b.parted
  partedBefore := b.partedBefore
  counted := by
    rw [(SampleQueue.drains_of_drainWindow taken).dropped_rest, b.counted]
    simp [dropped_eq, enter, Session.lost_depart]

end Ledger.Balances

/-! ## Runs -/

namespace Chronicle

variable {layout : Demux} {r : Chronicle}

/-- A run whose ledger balances. -/
structure Balanced (r : Chronicle) (layout : Demux) : Prop where
  layout_eq : r.live.worker.layout = layout
  balances : r.ledger.Balances layout r.live.stream.queue r.live.worker.inHand

/-- A run that has not begun balances. -/
theorem balanced_ofName (source : String) (layout : Demux) (name : String) (enabled : Bool) (capacity : Nat) :
    (ofLive (.ofName source layout name enabled capacity)).Balanced layout where
  layout_eq := rfl
  balances := {
    held := rfl
    settled := by intro s h; cases h
    parted := rfl
    partedBefore := by intro s h; cases h
    counted := rfl }

theorem Balanced.record_work (b : r.Balanced layout) (answers : Answers) :
    (r.record (.work answers)).Balanced layout := by
  have work := r.live.sampleWork answers
  have entered := r.ledger_record (.work answers)
  have before := b.balances
  refine ⟨(r.live.layout_next _).trans b.layout_eq, ?_⟩
  show Ledger.Balances _ layout (r.live.next (.work answers)).stream.queue (r.live.next (.work answers)).worker.inHand
  rw [entered]
  generalize r.live.deed? (.work answers) = d at work
  cases work with
  | clearing hand hand' queue =>
    rw [hand] at before
    rw [hand', queue]
    exact before.clear
  | parting words hand hand' queue =>
    rw [hand] at before
    rw [hand', queue, b.layout_eq]
    exact before.part words
  | pushing buffer hand hand' queue =>
    rw [hand] at before
    rw [hand', queue]
    exact before.push
  | elsewhere d hand hand' queue still =>
    rw [hand] at before
    rw [hand', queue]
    cases d with
    | none => exact before
    | some d =>
      show (r.ledger.enter d).Balances layout _ _
      rw [r.ledger.enter_of_moves_eq_false (still d rfl)]
      exact before

theorem Balanced.record_drain (b : r.Balanced layout) (n : Nat) (policy : DrainPolicy) (out : Channels) :
    (r.record (.drain n policy out)).Balanced layout := by
  have entered := r.ledger_record (.drain n policy out)
  refine ⟨b.layout_eq, ?_⟩
  show Ledger.Balances _ layout (r.live.stream.queue.drainWindow n policy out).2.2 r.live.worker.inHand
  rw [entered, LiveStream.deed?]
  rcases taken : r.live.stream.queue.drainWindow n policy out with ⟨_ | _, filled, rest⟩
  · have refused := SampleQueue.drainWindow_refused (congrArg Prod.fst taken)
    rw [taken] at refused
    obtain ⟨-, -, rfl⟩ := refused
    exact b.balances
  · exact b.balances.drain taken

/-- Every event keeps the balance. -/
theorem Balanced.record (b : r.Balanced layout) (e : StreamEvent) : (r.record e).Balanced layout := by
  cases e with
  | work answers => exact b.record_work answers
  | drain n policy out => exact b.record_drain n policy out
  | enable =>
    refine ⟨b.layout_eq, ?_⟩
    rw [ledger_record]
    exact b.balances
  | disable =>
    refine ⟨b.layout_eq, ?_⟩
    rw [ledger_record]
    exact b.balances
  | shutDown =>
    refine ⟨b.layout_eq, ?_⟩
    rw [ledger_record]
    exact b.balances

/-- Every run balances. -/
theorem Balanced.recordAll (b : r.Balanced layout) (events : List StreamEvent) : (r.recordAll events).Balanced layout :=
  induct (P := fun r => r.Balanced layout) (fun _ e b => b.record e) b events

end Chronicle

/-! ## Every sample in one place -/

/-- The departures of a session are slices of what arrived, one right after the other. -/
theorem Session.slice_of_departed {s : Session} {rest : List Sample} (held : s.arrived = s.gone ++ rest)
    {before after : List Departure} {d : Departure} (cut : s.departed = before ++ d :: after) :
    d.samples = (s.arrived.drop (before.flatMap Departure.samples).length).take d.samples.length := by
  rw [held, gone, cut]
  simp [List.flatMap_append, List.append_assoc]

/-- The samples of a run by the accounts of its ledger, where `s` is the session whose samples are queued. -/
structure Chronicle.Accounted (r : Chronicle) (layout : Demux) (capacity : Nat) : Prop where
  /-- The channels hold as many numbers each, and no more than the queue may hold. -/
  even : r.live.stream.queue.channels.i.size = r.live.stream.queue.channels.q.size
  bounded : r.live.stream.queue.channels.i.size ≤ capacity
  /-- Both hold the last part of one session. -/
  lastPart_i : r.live.stream.queue.channels.i.toList =
    (r.ledger.current.arrived.drop r.ledger.current.gone.length).map Sample.i
  lastPart_q : r.live.stream.queue.channels.q.toList =
    (r.ledger.current.arrived.drop r.ledger.current.gone.length).map Sample.q
  /-- What arrives is what the polled buffers hold, one sample from each group, but for what is still in hand. -/
  arrivals : r.ledger.current.polled.flatMap layout.samples = r.ledger.current.arrived ++ r.live.worker.inHand
  arrivalsBefore : ∀ s ∈ r.ledger.past, s.polled.flatMap layout.samples = s.arrived
  /-- Every sample that arrived has departed, once and in order, or is queued. -/
  places : r.ledger.current.arrived = r.ledger.current.gone ++ r.live.stream.queue.toList
  placesBefore : ∀ s ∈ r.ledger.past, s.arrived = s.gone
  /-- Windows and everything else that departs are slices of their session, one right after the other. -/
  slices : ∀ s ∈ r.ledger.sessions, ∀ before d after, s.departed = before ++ d :: after →
    d.samples = (s.arrived.drop (before.flatMap Departure.samples).length).take d.samples.length
  /-- The queue counts what was pushed out of it. -/
  counted : r.live.stream.queue.dropped = r.ledger.dropped
  /-- A drain that says no changes neither the arrays nor the queue. -/
  refused : ∀ n policy out, (r.live.stream.queue.drainWindow n policy out).1 = false →
    (r.live.stream.queue.drainWindow n policy out).2 = (out, r.live.stream.queue)
  /-- A drain that says yes gives the next `n` samples of the session, both channels alike, and leaves the rest of the
  arrays. -/
  given : ∀ n policy out filled rest, r.live.stream.queue.drainWindow n policy out = (true, filled, rest) →
    ∃ window discarded, window.length = n ∧ window <+: r.ledger.current.arrived.drop r.ledger.current.gone.length
      ∧ filled.i.toList = window.map Sample.i ++ out.i.toList.drop n
      ∧ filled.q.toList = window.map Sample.q ++ out.q.toList.drop n
      ∧ (r.record (.drain n policy out)).ledger.current
        = r.ledger.current.depart [⟨.given, window⟩, ⟨.discarded, discarded⟩]

/-- A balanced run accounts for its samples. -/
theorem Chronicle.Balanced.accounted {r : Chronicle} {layout : Demux} (b : r.Balanced layout) :
    r.Accounted layout r.live.stream.queue.capacity := by
  have queued : r.ledger.current.arrived.drop r.ledger.current.gone.length = r.live.stream.queue.toList := by
    rw [b.balances.held, List.drop_left]
  refine {
    even := r.live.stream.queue.size_eq
    bounded := r.live.stream.queue.size_le
    lastPart_i := queued ▸ Channels.toList_i r.live.stream.queue.size_eq
    lastPart_q := queued ▸ Channels.toList_q r.live.stream.queue.size_eq
    arrivals := b.balances.parted
    arrivalsBefore := b.balances.partedBefore
    places := b.balances.held
    placesBefore := b.balances.settled
    slices := ?_
    counted := b.balances.counted
    refused := fun n policy out h => by rw [SampleQueue.drainWindow_refused h]
    given := ?_ }
  · intro s h before d after cut
    rcases List.mem_append.1 h with h | h
    · have held : s.arrived = s.gone ++ [] := by simpa using b.balances.settled s h
      exact s.slice_of_departed held cut
    · obtain rfl := List.mem_singleton.1 h
      exact Session.slice_of_departed b.balances.held cut
  · intro n policy out filled rest taken
    have d := SampleQueue.drains_of_drainWindow taken
    refine ⟨r.live.stream.queue.toList.take n, LiveStream.discardedBy r.live.stream.queue rest n, ?_, ?_, d.filled_i,
      d.filled_q, ?_⟩
    · rw [List.length_take, SampleQueue.length_toList, Nat.min_eq_left d.le_size]
    · rw [queued]
      exact List.take_prefix n _
    · rw [ledger_record, LiveStream.deed?, taken, ← d.take_toList_filled]
      rfl

/-- **Every sample is accounted for**, at every moment of every run of a stream. -/
theorem samples_accounted_for (source : String) (layout : Demux) (name : String) (enabled : Bool) (capacity : Nat)
    (events : List StreamEvent) :
    ((Chronicle.ofLive (.ofName source layout name enabled capacity)).recordAll events).Accounted layout
      (max capacity 1) := by
  have b := (Chronicle.balanced_ofName source layout name enabled capacity).recordAll events
  have same : ((Chronicle.ofLive (.ofName source layout name enabled capacity)).recordAll
      events).live.stream.queue.capacity = max capacity 1 := Chronicle.capacity_recordAll _ events
  rw [← same]
  exact b.accounted

end Panadapter
