import Panadapter.Proofs.Stream.Staleness

/-!
# The counters of a stream

The worker publishes how many buffers it has polled, how many samples they held, and how many samples had to go from
the queue. It counts a buffer after it has put its samples on the queue. So the counters are behind by the buffer that
has been polled and is not on the queue yet (`Worker.buffersInHand`), and by the one that is on the queue and not
counted yet (`Position.unrecorded`).

* Every event keeps the counters in step with the ledger and with the queue's own count (`LiveStream.tallies_next`).
* All samples that arrived have been dropped, drained or cleared, or are queued (`Ledger.Balances.length_arrivals`).
* `counters_agree`: both for every run of a stream. While no buffer waits to be counted, the counters are right exactly
  if none is in hand either; a run stands where one is (`not_forall_counts_all`).
-/

namespace Panadapter

/-! ## The ledger in numbers -/

/-- Samples that have left meet one of four fates. -/
theorem Session.length_gone (s : Session) :
    s.gone.length = s.lost .given + s.lost .discarded + s.lost .dropped + s.lost .cleared := by
  obtain ⟨polled, arrived, departed⟩ := s
  simp only [gone, lost]
  induction departed with
  | nil => rfl
  | cons d rest ih =>
    obtain ⟨fate, samples⟩ := d
    rw [List.flatMap_cons, List.length_append, ih]
    cases fate <;> simp <;> omega

/-- How many buffers a deed polls. -/
def Deed.newBuffers : Deed → Nat
  | polled (some _) => 1
  | _ => 0

namespace Ledger

/-- How many buffers have been polled in all sessions. -/
def buffers (l : Ledger) : Nat := (l.sessions.map (·.polled.length)).sum

/-- All samples of the buffers that have been polled. -/
def parted (l : Ledger) (layout : Demux) : List Sample := l.sessions.flatMap (·.polled.flatMap layout.samples)

/-- How many samples of all sessions have met a fate. -/
def lost (l : Ledger) (fate : Fate) : Nat := (l.sessions.map (·.lost fate)).sum

variable (l : Ledger)

theorem buffers_eq : l.buffers = (l.past.map (·.polled.length)).sum + l.current.polled.length := by
  simp [buffers, sessions]

/-- Only polling makes buffers more. -/
theorem buffers_enter (d : Deed) : (l.enter d).buffers = l.buffers + d.newBuffers := by
  cases d with
  | polled answer =>
    cases answer with
    | none => rfl
    | some words => simp [buffers_eq, enter, Session.poll, Deed.newBuffers, Nat.add_assoc]
  | cleared gone => simp [buffers_eq, enter, Deed.newBuffers]
  | pushed new gone => simp [buffers_eq, enter, Deed.newBuffers]
  | drained window gone => simp [buffers_eq, enter, Deed.newBuffers]
  | _ => rfl

theorem lost_eq (fate : Fate) : l.lost fate = (l.past.map (·.lost fate)).sum + l.current.lost fate := by
  simp [lost, sessions]

/-- What has left the queue in all sessions that are over, by its fate. -/
theorem length_flatMap_gone (sessions : List Session) : (sessions.flatMap Session.gone).length =
    (sessions.map (·.lost .given)).sum + (sessions.map (·.lost .discarded)).sum
      + (sessions.map (·.lost .dropped)).sum + (sessions.map (·.lost .cleared)).sum := by
  induction sessions with
  | nil => rfl
  | cons s rest ih =>
    rw [List.flatMap_cons, List.length_append, ih, s.length_gone]
    simp only [List.map_cons, List.sum_cons]
    omega

namespace Balances

variable {l} {layout : Demux} {q : SampleQueue} {inHand : List Sample} (b : l.Balances layout q inHand)

include b

/-- Everything that has arrived has left in one of four ways or is queued. -/
theorem length_arrivals : l.arrivals.length
    = l.lost .given + l.lost .discarded + l.lost .dropped + l.lost .cleared + q.size := by
  have past : l.past.flatMap Session.arrived = l.past.flatMap Session.gone := by
    rw [List.flatMap, List.flatMap, List.map_congr_left b.settled]
  have count := congrArg List.length b.held
  rw [List.length_append, SampleQueue.length_toList, l.current.length_gone] at count
  rw [arrivals_eq, List.length_append, past, length_flatMap_gone, count]
  simp only [lost_eq]
  omega

/-- The samples of all polled buffers have arrived but for those in hand. -/
theorem parted_eq : l.parted layout = l.arrivals ++ inHand := by
  have past : l.past.flatMap (fun s => s.polled.flatMap layout.samples) = l.past.flatMap Session.arrived := by
    rw [List.flatMap, List.flatMap, List.map_congr_left b.partedBefore]
  rw [Ledger.parted, sessions, List.flatMap_append, past, arrivals_eq, List.append_assoc, ← b.parted]
  simp

end Balances

end Ledger

/-! ## In step -/

/-- What the worker has yet to count of the buffer whose samples it has put on the queue. -/
def Position.unrecorded : Position → StreamStats
  | recording _ samples dropped => { buffers := 1, samples, dropped }
  | _ => {}

/-- Whether samples have been put on the queue that are not counted yet. -/
def Position.isRecording : Position → Bool
  | recording _ _ _ => true
  | _ => false

theorem Position.unrecorded_eq {p : Position} (h : p.isRecording = false) : p.unrecorded = {} := by
  cases p with
  | recording device samples dropped => cases h
  | _ => rfl

/-- How many buffers a worker has polled and not put on the queue yet. -/
def Worker.buffersInHand (w : Worker) : Nat :=
  match w.position with
  | .pushing _ _ => 1
  | _ => 0

theorem Worker.inHand_eq_nil {w : Worker} (h : w.buffersInHand = 0) : w.inHand = [] := by
  obtain ⟨source, layout, position⟩ := w
  cases position with
  | pushing device buffer => cases h
  | _ => rfl

/-- Counters that are in step with a ledger and with the count of a queue, given what is not counted yet and how many
buffers are in hand. -/
structure Ledger.Tallies (l : Ledger) (stats unrecorded : StreamStats) (inHand : Nat) (q : SampleQueue) : Prop where
  buffers : stats.buffers + unrecorded.buffers + inHand = l.buffers
  samples : stats.samples + unrecorded.samples = l.arrivals.length
  dropped : stats.dropped + unrecorded.dropped = q.dropped

namespace Ledger.Tallies

variable {l : Ledger} {stats : StreamStats} {q : SampleQueue}

/-- Where nothing waits to be counted, only buffers in hand are missing. -/
theorem counted {p : Position} {inHand : Nat} (t : l.Tallies stats p.unrecorded inHand q)
    (none : p.isRecording = false) :
    stats.buffers + inHand = l.buffers ∧ stats.samples = l.arrivals.length ∧ stats.dropped = q.dropped := by
  rw [Position.unrecorded_eq none] at t
  exact ⟨t.buffers, t.samples, t.dropped⟩

/-- Nothing polled, nothing put on the queue, and nothing dropped. -/
theorem other {unrecorded : StreamStats} {inHand : Nat} (t : l.Tallies stats unrecorded inHand q) {d : Deed}
    (unpolled : d.newBuffers = 0) (nothing : d.arriving = []) {q' : SampleQueue} (kept : q'.dropped = q.dropped) :
    (l.enter d).Tallies stats unrecorded inHand q' where
  buffers := by
    rw [buffers_enter, unpolled]
    exact t.buffers
  samples := by
    rw [arrivals_enter, nothing, List.append_nil]
    exact t.samples
  dropped := t.dropped.trans kept.symm

/-- A buffer polled. -/
theorem poll (t : l.Tallies stats {} 0 q) (words : Array Int16) :
    (l.enter (.polled (some words))).Tallies stats {} 1 q where
  buffers := by
    rw [buffers_enter, ← t.buffers]
    rfl
  samples := by
    rw [arrivals_enter]
    simpa [Deed.arriving] using t.samples
  dropped := t.dropped

/-- A buffer put on the queue. -/
theorem push {buffer : Channels} (t : l.Tallies stats {} 1 q) (even : buffer.i.size = buffer.q.size)
    (gone : List Sample) : (l.enter (.pushed buffer.toList gone)).Tallies stats
      { buffers := 1, samples := buffer.i.size, dropped := q.overflow buffer.size } 0 (q.push buffer) where
  buffers := by
    rw [buffers_enter, ← t.buffers]
    exact Nat.add_right_comm ..
  samples := by
    have before := t.samples
    have whole : buffer.size = buffer.i.size := by rw [Channels.size, even, Nat.min_self]
    rw [arrivals_enter, Deed.arriving, List.length_append, Channels.length_toList, ← before, whole]
    rfl
  dropped := by
    have before : stats.dropped = q.dropped := t.dropped
    rw [before]
    exact (q.dropped_push buffer).symm

end Ledger.Tallies

/-- A drain drops nothing. -/
theorem SampleQueue.dropped_drainWindow (q : SampleQueue) (n : Nat) (policy : DrainPolicy) (out : Channels) :
    (q.drainWindow n policy out).2.2.dropped = q.dropped := by
  rcases h : q.drainWindow n policy out with ⟨_ | _, filled, rest⟩
  · have refused := drainWindow_refused (congrArg Prod.fst h)
    rw [h] at refused
    cases refused
    rfl
  · exact (drains_of_drainWindow h).dropped_rest

namespace LiveStream

/-- A stream whose counters are in step with a ledger, with a buffer of two equal channels in hand, if any. -/
structure Tallies (x : LiveStream) (l : Ledger) : Prop where
  tallies : l.Tallies x.stream.control.stats x.worker.position.unrecorded x.worker.buffersInHand x.stream.queue
  even : ∀ device buffer, x.worker.position = .pushing device buffer → buffer.i.size = buffer.q.size

/-- A step of the worker keeps the counters in step. -/
theorem tallies_work {x : LiveStream} {l : Ledger} (t : x.Tallies l) (answers : Answers) :
    (x.next (.work answers)).Tallies ((x.deed? (.work answers)).toList.foldl Ledger.enter l) := by
  obtain ⟨⟨source, layout, position⟩, ⟨⟨name, enabled, state, stats, lastError⟩, queue⟩, shutdown⟩ := x
  obtain ⟨opened, started, polled⟩ := answers
  obtain ⟨tallies, even⟩ := t
  cases position with
  | clearing => exact ⟨tallies.other (d := .cleared queue.toList) rfl rfl rfl, nofun⟩
  | polling device =>
    cases polled with
    | none => exact ⟨tallies, nofun⟩
    | some words =>
      refine ⟨tallies.poll words, ?_⟩
      rintro _ _ ⟨⟩
      exact layout.size_eq_channels words
  | pushing device buffer => exact ⟨tallies.push (even device buffer rfl) _, nofun⟩
  | recording device samples dropped => exact ⟨⟨tallies.buffers, tallies.samples, tallies.dropped⟩, nofun⟩
  | countingFailure reason => exact ⟨⟨tallies.buffers, tallies.samples, tallies.dropped⟩, nofun⟩
  -- Elsewhere nothing is counted on either side.
  | opening => cases opened <;> exact ⟨tallies, nofun⟩
  | starting device => cases started <;> exact ⟨tallies, nofun⟩
  | testingShutdown => cases shutdown <;> exact ⟨tallies, nofun⟩
  | testingEnabled => cases enabled <;> exact ⟨tallies, nofun⟩
  | checkingEnabled device => cases enabled <;> exact ⟨tallies, nofun⟩
  | checkingShutdown device => cases shutdown <;> exact ⟨tallies, nofun⟩
  | leaving device => cases shutdown <;> exact ⟨tallies, nofun⟩
  | settling => cases state <;> exact ⟨tallies, nofun⟩
  | _ => exact ⟨tallies, nofun⟩

/-- Every event keeps the counters in step. -/
theorem tallies_next {x : LiveStream} {l : Ledger} (t : x.Tallies l) (e : StreamEvent) :
    (x.next e).Tallies ((x.deed? e).toList.foldl Ledger.enter l) := by
  cases e with
  | work answers => exact tallies_work t answers
  | drain n policy out =>
    have kept := x.stream.queue.dropped_drainWindow n policy out
    refine ⟨?_, t.even⟩
    cases done : x.deed? (.drain n policy out) with
    | none => exact ⟨t.tallies.buffers, t.tallies.samples, t.tallies.dropped.trans kept.symm⟩
    | some d =>
      obtain ⟨window, gone, rfl⟩ := drained_of_deed? done
      exact t.tallies.other (d := .drained window gone) rfl rfl kept
  | _ => exact ⟨⟨t.tallies.buffers, t.tallies.samples, t.tallies.dropped⟩, t.even⟩

end LiveStream

/-! ## Every run -/

namespace Chronicle

/-- The run that has not begun is in step. -/
theorem tallies_ofName (source : String) (layout : Demux) (name : String) (enabled : Bool) (capacity : Nat) :
    (ofLive (.ofName source layout name enabled capacity)).live.Tallies
      (ofLive (.ofName source layout name enabled capacity)).ledger where
  tallies := ⟨rfl, rfl, rfl⟩
  even := nofun

/-- Every run stays in step. -/
theorem tallies_recordAll {r : Chronicle} (t : r.live.Tallies r.ledger) (events : List StreamEvent) :
    (r.recordAll events).live.Tallies (r.recordAll events).ledger :=
  induct (P := fun r => r.live.Tallies r.ledger)
    (fun r e t => (r.ledger_record e).symm ▸ LiveStream.tallies_next t e) t events

/-- Counters that are right as they stand: every buffer and every sample is counted, and every sample has a place. -/
structure CountsAll (r : Chronicle) (layout : Demux) : Prop where
  buffers : r.live.stream.control.stats.buffers = r.ledger.buffers
  samples : r.live.stream.control.stats.samples = (r.ledger.parted layout).length
  dropped : r.live.stream.control.stats.dropped = r.live.stream.queue.dropped
  places : r.live.stream.control.stats.samples = r.live.stream.control.stats.dropped
    + (r.ledger.lost .given + r.ledger.lost .discarded) + r.ledger.lost .cleared + r.live.stream.queue.size

/-- The counters that a stream publishes, beside what has happened to its buffers and samples. -/
structure CountersAgree (r : Chronicle) (layout : Demux) : Prop where
  /-- Buffers and samples are counted but for what is in hand or not recorded yet. -/
  buffers : r.live.stream.control.stats.buffers + r.live.worker.position.unrecorded.buffers
    + r.live.worker.buffersInHand = r.ledger.buffers
  samples : r.live.stream.control.stats.samples + r.live.worker.position.unrecorded.samples
    + r.live.worker.inHand.length = (r.ledger.parted layout).length
  /-- The stream counts what its queue counts, but for what is not recorded yet. -/
  dropped : r.live.stream.control.stats.dropped + r.live.worker.position.unrecorded.dropped
    = r.live.stream.queue.dropped
  /-- Every sample that has come has been dropped, drained or cleared, or is queued. -/
  places : r.live.stream.control.stats.samples + r.live.worker.position.unrecorded.samples
    = r.live.stream.queue.dropped + (r.ledger.lost .given + r.ledger.lost .discarded) + r.ledger.lost .cleared
      + r.live.stream.queue.size
  /-- Unless a buffer has been put on the queue and not been recorded, the counters are behind only by the buffer that
  has been polled and is not on the queue. -/
  recorded : r.live.worker.position.isRecording = false →
    r.live.stream.control.stats.buffers + r.live.worker.buffersInHand = r.ledger.buffers
      ∧ r.live.stream.control.stats.samples + r.live.worker.inHand.length = (r.ledger.parted layout).length
      ∧ r.live.stream.control.stats.dropped = r.live.stream.queue.dropped
      ∧ r.live.stream.control.stats.samples = r.live.stream.control.stats.dropped
        + (r.ledger.lost .given + r.ledger.lost .discarded) + r.ledger.lost .cleared + r.live.stream.queue.size
  /-- With no buffer between its poll and its record, all buffers and all samples have been counted. -/
  settled : r.live.worker.position.isRecording = false → r.live.worker.buffersInHand = 0 →
    r.live.stream.control.stats.buffers = r.ledger.buffers
      ∧ r.live.stream.control.stats.samples = (r.ledger.parted layout).length
  /-- With a buffer in hand they are not right as they stand, and without one they are. -/
  countsAll_iff : r.live.worker.position.isRecording = false →
    (r.CountsAll layout ↔ r.live.worker.buffersInHand = 0)
  /-- Emptying and draining the queue leave its count alone. -/
  cleared : r.live.stream.queue.clear.dropped = r.live.stream.queue.dropped
  drained : ∀ n policy out, (r.live.stream.queue.drainWindow n policy out).2.2.dropped = r.live.stream.queue.dropped

/-- Counters in step with a ledger that balances agree with what has happened. -/
theorem Balanced.countersAgree {r : Chronicle} {layout : Demux} (b : r.Balanced layout) (t : r.live.Tallies r.ledger) :
    r.CountersAgree layout := by
  have buffers := t.tallies.buffers
  have samples := t.tallies.samples
  have dropped := t.tallies.dropped
  have counted : r.live.stream.queue.dropped = r.ledger.lost .dropped := b.balances.counted
  have arrivals := b.balances.length_arrivals
  have parted := congrArg List.length b.balances.parted_eq
  rw [List.length_append] at parted
  refine {
    buffers
    samples := by omega
    dropped
    places := by omega
    recorded := fun none => ?_
    settled := fun none empty => ?_
    countsAll_iff := fun none => ?_
    cleared := SampleQueue.dropped_clear _
    drained := SampleQueue.dropped_drainWindow _ }
  · obtain ⟨buffers, samples, dropped⟩ := t.tallies.counted none
    exact ⟨buffers, by omega, dropped, by omega⟩
  · obtain ⟨buffers, samples, -⟩ := t.tallies.counted none
    rw [empty] at buffers
    rw [Worker.inHand_eq_nil empty] at parted
    exact ⟨buffers, samples.trans parted.symm⟩
  · obtain ⟨buffers, samples, dropped⟩ := t.tallies.counted none
    constructor
    · intro all
      have same := all.buffers
      omega
    · intro empty
      rw [Worker.inHand_eq_nil empty] at parted
      exact ⟨by omega, samples.trans parted.symm, dropped, by omega⟩

end Chronicle

/-- **The counters agree**, at every moment of every run of a stream. -/
theorem counters_agree (source : String) (layout : Demux) (name : String) (enabled : Bool) (capacity : Nat)
    (events : List StreamEvent) :
    ((Chronicle.ofLive (.ofName source layout name enabled capacity)).recordAll events).CountersAgree layout :=
  ((Chronicle.balanced_ofName source layout name enabled capacity).recordAll events).countersAgree
    (Chronicle.tallies_recordAll (Chronicle.tallies_ofName source layout name enabled capacity) events)

/-! ## A buffer in hand -/

/-- A worker whose buffers have three samples and whose queue has room for two: it has put one buffer on the queue and
counted it, the queue has been drained, and it has polled the next buffer. -/
def StreamEvent.untilSecondPoll : List StreamEvent :=
  let work : StreamEvent := .work ⟨.ok "scripted", .ok (), some #[1, 2, 3, 4, 5, 6]⟩
  List.replicate 12 work ++ .drain 1 .wholeWindows (.zeros 1) :: List.replicate 3 work

/-- The stream of this worker from its beginning. -/
def Chronicle.untilSecondPoll : Chronicle :=
  (ofLive (.ofName "custom transport" (.ofStride 2 1) "s" true 2)).recordAll StreamEvent.untilSecondPoll

theorem counters_agree_at_second_poll :
    Chronicle.untilSecondPoll.live.stream.control.stats = { buffers := 1, samples := 3, dropped := 1 }
      ∧ Chronicle.untilSecondPoll.ledger.buffers = 2
      ∧ (Chronicle.untilSecondPoll.ledger.parted (.ofStride 2 1)).length = 6
      ∧ Chronicle.untilSecondPoll.ledger.lost .given + Chronicle.untilSecondPoll.ledger.lost .discarded = 2
      ∧ ¬Chronicle.untilSecondPoll.CountsAll (.ofStride 2 1) := by
  have agree : Chronicle.untilSecondPoll.CountersAgree (.ofStride 2 1) :=
    counters_agree "custom transport" (.ofStride 2 1) "s" true 2 StreamEvent.untilSecondPoll
  have stats : Chronicle.untilSecondPoll.live.stream.control.stats = { buffers := 1, samples := 3, dropped := 1 } := by
    decide +kernel
  have counted : Chronicle.untilSecondPoll.live.worker.position.isRecording = false := by decide +kernel
  have one : Chronicle.untilSecondPoll.live.worker.buffersInHand = 1 := by decide +kernel
  have three : Chronicle.untilSecondPoll.live.worker.inHand.length = 3 := by decide +kernel
  have uncleared : Chronicle.untilSecondPoll.ledger.lost .cleared = 0 := by decide +kernel
  have empty : Chronicle.untilSecondPoll.live.stream.queue.size = 0 := by decide +kernel
  obtain ⟨buffers, samples, -, places⟩ := agree.recorded counted
  rw [stats, one] at buffers
  rw [stats, three] at samples
  rw [stats, uncleared, empty] at places
  refine ⟨stats, buffers.symm, samples.symm, (Nat.add_left_cancel places).symm, fun all => ?_⟩
  rw [agree.countsAll_iff counted, one] at all
  cases all

/-- So a worker need not stand between putting a buffer on the queue and counting it for its counters to be behind. -/
theorem not_forall_counts_all : ¬∀ (source : String) (layout : Demux) (name : String) (enabled : Bool) (capacity : Nat)
    (events : List StreamEvent),
    ((Chronicle.ofLive (.ofName source layout name enabled capacity)).recordAll
        events).live.worker.position.isRecording = false →
      ((Chronicle.ofLive (.ofName source layout name enabled capacity)).recordAll events).CountsAll layout := by
  intro always
  have all : Chronicle.untilSecondPoll.CountsAll (.ofStride 2 1) :=
    always "custom transport" (.ofStride 2 1) "s" true 2 StreamEvent.untilSecondPoll (by decide +kernel)
  exact absurd all.buffers (by decide +kernel)

end Panadapter
