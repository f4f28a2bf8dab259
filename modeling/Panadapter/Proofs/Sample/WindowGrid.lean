import Panadapter.Sample.Queue

/-!
# Windows on a grid

Windows of one length, taken by the rule that discards whole windows only, lie side by side on a grid that begins where
the queue was emptied. A `WindowedQueue` is a queue since then, with all that was pushed and the windows taken.

* The queue holds the last samples pushed, and what is pushed out or taken moves its head (`WindowedQueue.Tracks`).
* As long as whole windows go, the head stays on the grid (`WindowedQueue.OnGrid.push`, `WindowedQueue.OnGrid.drain`).
* Hence every window starts on the grid if no sample was pushed out, or if the length divides the capacity and the
  length of everything pushed (`windows_on_grid`).
-/

namespace Panadapter

/-- What is done to a queue from which windows of one length are taken: samples pushed, or a window asked for. -/
inductive QueueUse where
  | push (new : Channels)
  | drain (out : Channels)

/-- A window taken from a queue: the place of its first sample among those pushed, its samples, and how many samples
stayed in the queue. -/
structure TakenWindow where
  start : Nat
  samples : List Sample
  left : Nat

/-- A queue since it was emptied: the samples pushed since then and the windows taken, oldest first. -/
structure WindowedQueue where
  queue : SampleQueue
  pushed : List Sample
  taken : List TakenWindow

namespace WindowedQueue

/-- A queue that has just been emptied. -/
def ofCleared (q : SampleQueue) : WindowedQueue := ⟨q.clear, [], []⟩

/-- The place of the oldest queued sample among those pushed: what comes behind it is as long as the queue. -/
def head (r : WindowedQueue) : Nat := r.pushed.length - r.queue.size

/-- One use, where windows have `n` samples. -/
def use (n : Nat) (r : WindowedQueue) : QueueUse → WindowedQueue
  | .push new => { r with queue := r.queue.push new, pushed := r.pushed ++ new.toList }
  | .drain out =>
    match r.queue.drainWindow n .wholeWindows out with
    | (true, filled, queue) => { r with queue, taken := r.taken ++ [⟨r.head, filled.toList.take n, queue.size⟩] }
    | (false, _, queue) => { r with queue }

/-- Uses in order. -/
def useAll (n : Nat) (r : WindowedQueue) (uses : List QueueUse) : WindowedQueue := uses.foldl (use n) r

variable {n : Nat} {r : WindowedQueue}

@[simp] theorem useAll_cons (u : QueueUse) (rest : List QueueUse) :
    r.useAll n (u :: rest) = (r.use n u).useAll n rest := rfl

/-! ## The queue among the samples pushed -/

/-- The queue holds what was pushed last. -/
structure Tracks (r : WindowedQueue) : Prop where
  size_le : r.queue.size ≤ r.pushed.length
  queued : r.queue.toList = r.pushed.drop r.head

theorem tracks_ofCleared (q : SampleQueue) : (ofCleared q).Tracks := ⟨Nat.zero_le _, rfl⟩

/-- A push moves the head by what it pushes out. -/
theorem Tracks.head_push (t : r.Tracks) (new : Channels) :
    (r.use n (.push new)).head = r.head + r.queue.overflow new.size := by
  have le := t.size_le
  simp only [head, use, SampleQueue.size_push, SampleQueue.overflow_eq, List.length_append, Channels.length_toList]
  omega

theorem Tracks.push (t : r.Tracks) (new : Channels) : (r.use n (.push new)).Tracks where
  size_le := by
    have le := t.size_le
    simp only [use, SampleQueue.size_push, List.length_append, Channels.length_toList]
    omega
  queued := by
    have inside : r.head ≤ r.pushed.length := Nat.sub_le _ _
    rw [t.head_push, ← List.drop_drop]
    simp only [use, SampleQueue.toList_push]
    rw [List.drop_append_of_le_length inside, t.queued]

/-- A drain that gives a window leaves less than a window, and moves the head by whole windows. -/
theorem Tracks.drain_taken (t : r.Tracks) {out filled : Channels} {queue : SampleQueue}
    (h : r.queue.drainWindow n .wholeWindows out = (true, filled, queue)) :
    let after := r.use n (.drain out)
    after = { r with queue, taken := r.taken ++ [⟨r.head, (r.pushed.drop r.head).take n, queue.size⟩] }
      ∧ after.head = r.head + r.queue.size / n * n ∧ after.Tracks := by
  have d := SampleQueue.drains_of_drainWindow h
  have used : r.use n (.drain out)
      = { r with queue, taken := r.taken ++ [⟨r.head, (r.pushed.drop r.head).take n, queue.size⟩] } := by
    simp only [use, h]
    rw [d.take_toList_filled, t.queued]
  have left : queue.size = r.queue.size - r.queue.size / n * n := d.size_rest
  have some_left := Nat.div_mul_le_self r.queue.size n
  have le := t.size_le
  have moved : r.pushed.length - queue.size = r.head + r.queue.size / n * n := by
    rw [head]
    omega
  refine ⟨used, used ▸ moved, ?_⟩
  rw [used]
  refine ⟨?_, ?_⟩
  · show queue.size ≤ r.pushed.length
    omega
  · show queue.toList = r.pushed.drop (r.pushed.length - queue.size)
    rw [moved, ← List.drop_drop, ← t.queued]
    exact d.toList_rest

/-- A drain that gives none changes nothing. -/
theorem use_drain_refused {out : Channels} (h : (r.queue.drainWindow n .wholeWindows out).1 = false) :
    r.use n (.drain out) = r := by
  simp only [use, SampleQueue.drainWindow_refused h]

/-! ## The grid -/

/-- The windows so far: all on the grid of multiples of `n`, in order, as slices of what was pushed, and less than a
window left behind each. The head is on the grid as well, behind all of them. -/
structure OnGrid (n : Nat) (r : WindowedQueue) : Prop where
  tracks : r.Tracks
  head : n ∣ r.head
  start : ∀ w ∈ r.taken, n ∣ w.start
  samples : ∀ w ∈ r.taken, w.start + n ≤ r.pushed.length ∧ w.samples = (r.pushed.drop w.start).take n
  left : ∀ w ∈ r.taken, w.left < n
  ordered : (r.taken.map TakenWindow.start).Pairwise (· < ·)
  behind : ∀ w ∈ r.taken, w.start < r.head

theorem onGrid_ofCleared (q : SampleQueue) : OnGrid n (ofCleared q) where
  tracks := tracks_ofCleared q
  head := Nat.dvd_zero n
  start := fun _ mem => absurd mem List.not_mem_nil
  samples := fun _ mem => absurd mem List.not_mem_nil
  left := fun _ mem => absurd mem List.not_mem_nil
  ordered := .nil
  behind := fun _ mem => absurd mem List.not_mem_nil

/-- A push that pushes out whole windows leaves everything on the grid. -/
theorem OnGrid.push (g : OnGrid n r) {new : Channels} (whole : n ∣ r.queue.overflow new.size) :
    OnGrid n (r.use n (.push new)) where
  tracks := g.tracks.push new
  head := by
    rw [g.tracks.head_push]
    exact Nat.dvd_add g.head whole
  start := g.start
  samples := fun w mem => by
    obtain ⟨inside, same⟩ := g.samples w mem
    have longer : w.start ≤ r.pushed.length := by omega
    refine ⟨?_, ?_⟩
    · rw [use, List.length_append]
      omega
    · rw [use, List.drop_append_of_le_length longer, List.take_append_of_le_length (by rw [List.length_drop]; omega)]
      exact same
  left := g.left
  ordered := g.ordered
  behind := fun w mem => by
    rw [g.tracks.head_push]
    exact Nat.lt_add_right _ (g.behind w mem)

/-- So does every drain. -/
theorem OnGrid.drain (g : OnGrid n r) (out : Channels) : OnGrid n (r.use n (.drain out)) := by
  rcases h : r.queue.drainWindow n .wholeWindows out with ⟨_ | _, filled, queue⟩
  · rw [use_drain_refused (congrArg Prod.fst h)]
    exact g
  obtain ⟨used, moved, tracks⟩ := g.tracks.drain_taken h
  have d := SampleQueue.drains_of_drainWindow h
  have left : queue.size < n := by
    have rest : queue.size = r.queue.size - r.queue.size / n * n := d.size_rest
    rw [rest, ← Nat.mod_eq_sub_div_mul]
    exact Nat.mod_lt _ d.pos
  have onward : r.head < (r.use n (.drain out)).head := by
    have taken := Nat.le_mul_of_pos_left n (Nat.div_pos d.le_size d.pos)
    have := d.pos
    omega
  -- What holds of the windows so far holds of the new one, so every clause is split at the end of the list.
  have split {P : TakenWindow → Prop} (before : ∀ w ∈ r.taken, P w)
      (new : P ⟨r.head, (r.pushed.drop r.head).take n, queue.size⟩) :
      ∀ w ∈ (r.use n (.drain out)).taken, P w := by
    rw [used]
    intro w mem
    rcases List.mem_append.1 mem with mem | mem
    · exact before w mem
    · rw [List.mem_singleton.1 mem]
      exact new
  have pushed : (r.use n (.drain out)).pushed = r.pushed := by rw [used]
  have inside : r.head + n ≤ r.pushed.length := by
    have := d.le_size
    have := g.tracks.size_le
    rw [WindowedQueue.head]
    omega
  refine ⟨tracks, ?_, split g.start g.head, ?_, split g.left left, ?_, ?_⟩
  · rw [moved]
    exact Nat.dvd_add g.head (Nat.dvd_mul_left _ _)
  · rw [pushed]
    exact split g.samples ⟨inside, rfl⟩
  · rw [used, List.map_append, List.pairwise_append]
    refine ⟨g.ordered, List.pairwise_singleton _ _, ?_⟩
    simpa using g.behind
  · exact split (fun w mem => Nat.lt_trans (g.behind w mem) onward) onward

/-! ## Runs that push out nothing, or whole windows -/

theorem dropped_le_use (u : QueueUse) : r.queue.dropped ≤ (r.use n u).queue.dropped := by
  cases u with
  | push new => exact Nat.le_add_right _ _
  | drain out =>
    rcases h : r.queue.drainWindow n .wholeWindows out with ⟨_ | _, filled, queue⟩
    · exact Nat.le_of_eq (by rw [use_drain_refused (congrArg Prod.fst h)])
    · simp only [use, h]
      exact Nat.le_of_eq (SampleQueue.drains_of_drainWindow h).dropped_rest.symm

theorem dropped_le_useAll (uses : List QueueUse) : r.queue.dropped ≤ (r.useAll n uses).queue.dropped := by
  induction uses generalizing r with
  | nil => exact Nat.le_refl _
  | cons u rest ih => exact Nat.le_trans (dropped_le_use u) ih

/-- If nothing has been pushed out in the end, nothing was on the way. -/
theorem OnGrid.useAll_of_dropped_eq (g : OnGrid n r) {uses : List QueueUse}
    (kept : (r.useAll n uses).queue.dropped = r.queue.dropped) : OnGrid n (r.useAll n uses) := by
  induction uses generalizing r with
  | nil => exact g
  | cons u rest ih =>
    rw [useAll_cons] at kept ⊢
    have first := dropped_le_use (n := n) (r := r) u
    have later := dropped_le_useAll (n := n) (r := r.use n u) rest
    cases u with
    | push new =>
      have none_out : r.queue.overflow new.size = 0 := by
        have counted : (r.use n (.push new)).queue.dropped = r.queue.dropped + r.queue.overflow new.size := rfl
        omega
      exact ih (g.push (none_out ▸ Nat.dvd_zero n)) (by omega)
    | drain out => exact ih (g.drain out) (by omega)

/-- A queue of whole windows stays one if whole windows are pushed and whole windows fill it. -/
theorem dvd_size_use {u : QueueUse} (capacity : n ∣ r.queue.capacity) (size : n ∣ r.queue.size)
    (pushes : ∀ new, u = .push new → n ∣ new.size) :
    n ∣ (r.use n u).queue.capacity ∧ n ∣ (r.use n u).queue.size := by
  cases u with
  | push new =>
    refine ⟨capacity, ?_⟩
    rw [use, SampleQueue.size_push]
    rcases Nat.le_total (r.queue.size + new.size) r.queue.capacity with le | le
    · rw [Nat.min_eq_left le]
      exact Nat.dvd_add size (pushes new rfl)
    · rw [Nat.min_eq_right le]
      exact capacity
  | drain out =>
    rcases h : r.queue.drainWindow n .wholeWindows out with ⟨_ | _, filled, queue⟩
    · rw [use_drain_refused (congrArg Prod.fst h)]
      exact ⟨capacity, size⟩
    · have d := SampleQueue.drains_of_drainWindow h
      simp only [use, h]
      refine ⟨d.capacity_rest ▸ capacity, ?_⟩
      rw [d.size_rest]
      exact Nat.dvd_sub size (Nat.dvd_mul_left _ _)

/-- Then only whole windows are ever pushed out. -/
theorem OnGrid.useAll_of_dvd (g : OnGrid n r) {uses : List QueueUse} (capacity : n ∣ r.queue.capacity)
    (size : n ∣ r.queue.size) (pushes : ∀ new, .push new ∈ uses → n ∣ new.size) : OnGrid n (r.useAll n uses) := by
  induction uses generalizing r with
  | nil => exact g
  | cons u rest ih =>
    have first : ∀ new, u = .push new → n ∣ new.size := fun new eq => pushes new (eq ▸ List.mem_cons_self)
    obtain ⟨capacity', size'⟩ := dvd_size_use capacity size first
    refine ih ?_ capacity' size' fun new mem => pushes new (List.mem_cons_of_mem _ mem)
    cases u with
    | push new =>
      refine g.push ?_
      rw [SampleQueue.overflow_eq]
      exact Nat.dvd_sub (Nat.dvd_add size (first new rfl)) capacity
    | drain out => exact g.drain out

end WindowedQueue

/-- **Windows lie on a grid.** Windows of `n` samples are taken from a queue, by the rule that discards whole windows,
after it was emptied. If no sample has been pushed out since then, or if `n` divides the capacity and the length of
everything pushed, every window starts at a multiple of `n` among the samples pushed, is the slice of them from there,
and leaves less than a window behind; later windows start later. -/
theorem windows_on_grid (q : SampleQueue) (n : Nat) (uses : List QueueUse)
    (regular : ((WindowedQueue.ofCleared q).useAll n uses).queue.dropped = q.dropped
      ∨ n ∣ q.capacity ∧ ∀ new, .push new ∈ uses → n ∣ new.size) :
    let r := (WindowedQueue.ofCleared q).useAll n uses
    (∀ w ∈ r.taken, n ∣ w.start ∧ w.start + n ≤ r.pushed.length ∧ w.samples = (r.pushed.drop w.start).take n
        ∧ w.left < n)
      ∧ (r.taken.map TakenWindow.start).Pairwise (· < ·) := by
  intro r
  have g : WindowedQueue.OnGrid n r := by
    have first := WindowedQueue.onGrid_ofCleared (n := n) q
    rcases regular with kept | ⟨capacity, pushes⟩
    · exact first.useAll_of_dropped_eq kept
    · exact first.useAll_of_dvd capacity (Nat.dvd_zero n) pushes
  exact ⟨fun w mem => ⟨g.start w mem, (g.samples w mem).1, (g.samples w mem).2, g.left w mem⟩, g.ordered⟩

/-! ## A queue that runs over -/

namespace QueueUse

/-- Three windows of two samples for a queue that holds two of them, then one more; a window is taken after each. -/
def spilling : List QueueUse := [.push (.zeros 6), .drain (.zeros 2), .push (.zeros 2), .drain (.zeros 2)]

end QueueUse

theorem windows_on_grid_spilling :
    let r := (WindowedQueue.ofCleared (.ofCapacity 4)).useAll 2 QueueUse.spilling
    (2 ∣ (SampleQueue.ofCapacity 4).capacity ∧ ∀ new, .push new ∈ QueueUse.spilling → 2 ∣ new.size)
      ∧ r.queue.dropped = 2 ∧ r.taken.map TakenWindow.start = [2, 6] ∧ ∀ w ∈ r.taken, 2 ∣ w.start ∧ w.left < 2 := by
  have regular : 2 ∣ (SampleQueue.ofCapacity 4).capacity ∧ ∀ new, .push new ∈ QueueUse.spilling → 2 ∣ new.size := by
    refine ⟨by decide, fun new mem => ?_⟩
    simp only [QueueUse.spilling, List.mem_cons, QueueUse.push.injEq, List.not_mem_nil, reduceCtorEq, false_or,
      or_false] at mem
    rcases mem with rfl | rfl <;> decide
  intro r
  obtain ⟨windows, -⟩ := windows_on_grid (.ofCapacity 4) 2 QueueUse.spilling (.inr regular)
  refine ⟨regular, by decide +kernel, by decide +kernel, fun w mem => ?_⟩
  exact ⟨(windows w mem).1, (windows w mem).2.2.2⟩

end Panadapter
