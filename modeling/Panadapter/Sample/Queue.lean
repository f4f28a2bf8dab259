/-! # The queue between acquisition and display

A bounded queue of samples, in-phase and quadrature parts in a channel each. What does not fit pushes out the oldest
samples, which are counted. The consumer takes the oldest window of a given length and discards by one of two rules.

* `SampleQueue.push`, `SampleQueue.clear`, `SampleQueue.drainWindow`: the operations.
* `SampleQueue.toList`: the queued samples, oldest first, with one equation for each operation.
* `SampleQueue.drainWindow_taken_iff`, `SampleQueue.Drains`: when a window is taken, and what that does.
-/

namespace Panadapter

/-- One complex sample: in-phase and quadrature part. -/
structure Sample where
  i : Float32
  q : Float32
  deriving Repr, Inhabited

/-- What a drained window takes along with it. `discardAll` empties the queue; `wholeWindows` discards as many whole
windows as are queued and leaves the rest for the next time. -/
inductive DrainPolicy where
  | discardAll
  | wholeWindows
  deriving DecidableEq, Repr, Inhabited

namespace DrainPolicy

/-- The policies by name. -/
def named : List (String × DrainPolicy) := [("discard_all", discardAll), ("whole_windows", wholeWindows)]

/-- The name of a policy. -/
def name : DrainPolicy → String
  | discardAll => "discard_all"
  | wholeWindows => "whole_windows"

/-- How many of `size` queued samples go when a window of `n` is taken. -/
def discarded (policy : DrainPolicy) (n size : Nat) : Nat :=
  match policy with
  | discardAll => size
  | wholeWindows => size / n * n

theorem discarded_le (policy : DrainPolicy) (n size : Nat) : policy.discarded n size ≤ size := by
  cases policy
  · exact Nat.le_refl _
  · exact Nat.div_mul_le_self size n

/-- A window that is there goes as a whole. -/
theorem le_discarded (policy : DrainPolicy) {n size : Nat} (h : n ≤ size) : n ≤ policy.discarded n size := by
  cases policy with
  | discardAll => exact h
  | wholeWindows =>
    cases n with
    | zero => exact Nat.zero_le _
    | succ n => exact Nat.le_mul_of_pos_left _ (Nat.div_pos h (Nat.succ_pos n))

end DrainPolicy

/-- In-phase and quadrature samples side by side. -/
structure Channels where
  i : Array Float32
  q : Array Float32
  deriving Inhabited

namespace Channels

/-- Channels without samples. -/
def empty : Channels := ⟨#[], #[]⟩

/-- `n` samples of zero. -/
def zeros (n : Nat) : Channels := ⟨Array.replicate n 0, Array.replicate n 0⟩

/-- The count of samples that have both parts. -/
def size (c : Channels) : Nat := min c.i.size c.q.size

/-- The samples that have both parts. -/
def toList (c : Channels) : List Sample := List.zipWith Sample.mk c.i.toList c.q.toList

/-- The first `n` numbers of both channels. -/
def take (c : Channels) (n : Nat) : Channels := ⟨c.i.extract 0 n, c.q.extract 0 n⟩

/-- Both channels without their first `n` numbers. -/
def drop (c : Channels) (n : Nat) : Channels := ⟨c.i.extract n, c.q.extract n⟩

/-- The numbers of `d` after those of `c`. -/
def append (c d : Channels) : Channels := ⟨c.i ++ d.i, c.q ++ d.q⟩

/-- Both channels with their first numbers replaced. -/
def overwrite (c new : Channels) : Channels :=
  ⟨new.i ++ c.i.extract new.i.size, new.q ++ c.q.extract new.q.size⟩

@[simp] theorem length_toList (c : Channels) : c.toList.length = c.size := by simp [toList, size]

@[simp] theorem toList_empty : empty.toList = [] := rfl

@[simp] theorem toList_take (c : Channels) (n : Nat) : (c.take n).toList = c.toList.take n := by
  simp [toList, take, List.take_zipWith]

@[simp] theorem toList_drop (c : Channels) (n : Nat) : (c.drop n).toList = c.toList.drop n := by
  simp [toList, drop, List.drop_zipWith, List.take_of_length_le]

theorem toList_append {c : Channels} (h : c.i.size = c.q.size) (d : Channels) :
    (c.append d).toList = c.toList ++ d.toList := by
  simp only [toList, append, Array.toList_append]
  exact List.zipWith_append (by simpa using h)

/-- The first channel is read off the samples if the second one is as long. -/
theorem toList_i {c : Channels} (h : c.i.size = c.q.size) : c.i.toList = c.toList.map Sample.i :=
  List.ext_getElem (by simp [size, h]) fun k _ _ => by simp [toList]

/-- The second channel is read off the samples if the first one is as long. -/
theorem toList_q {c : Channels} (h : c.i.size = c.q.size) : c.q.toList = c.toList.map Sample.q :=
  List.ext_getElem (by simp [size, h]) fun k _ _ => by simp [toList]

end Channels

/-- A queue of at most `capacity` samples, and the count of those it had to push out. Its channels are equally long. -/
structure SampleQueue where
  capacity : Nat
  channels : Channels
  dropped : Nat
  size_eq : channels.i.size = channels.q.size
  size_le : channels.i.size ≤ capacity

namespace SampleQueue

/-- An empty queue. It holds one sample at least. -/
def ofCapacity (capacity : Nat) : SampleQueue := ⟨max capacity 1, .empty, 0, rfl, by simp [Channels.empty]⟩

/-- The queued samples, oldest first. -/
def toList (q : SampleQueue) : List Sample := q.channels.toList

/-- The count of queued samples. -/
def size (q : SampleQueue) : Nat := q.channels.size

/-- How many samples have to go to make room for `n` more. -/
def overflow (q : SampleQueue) (n : Nat) : Nat := q.channels.i.size + n - q.capacity

/-- Samples at the end of the queue; the oldest ones go if they do not all fit. A number without a partner in the other
channel is left out. -/
def push (q : SampleQueue) (new : Channels) : SampleQueue where
  capacity := q.capacity
  channels := (q.channels.append (new.take new.size)).drop (q.overflow new.size)
  dropped := q.dropped + q.overflow new.size
  size_eq := by
    have := q.size_eq
    simp only [Channels.append, Channels.drop, Channels.take, Channels.size, Array.size_extract, Array.size_append]
    omega
  size_le := by
    simp only [Channels.append, Channels.drop, Channels.take, Channels.size, Array.size_extract, Array.size_append,
      overflow]
    omega

/-- An empty queue, with the count of dropped samples kept. -/
def clear (q : SampleQueue) : SampleQueue :=
  { q with channels := .empty, size_eq := rfl, size_le := Nat.zero_le _ }

/-- The oldest `n` samples and the queue without what goes with them. Nothing is taken if they are not all there. -/
def drain? (q : SampleQueue) (n : Nat) (policy : DrainPolicy) : Option (Channels × SampleQueue) :=
  if 0 < n ∧ n ≤ q.size then
    some (q.channels.take n,
      { q with
        channels := q.channels.drop (policy.discarded n q.size)
        size_eq := by simp [Channels.drop, q.size_eq]
        size_le := by have := q.size_le; simp [Channels.drop]; omega })
  else none

/-- A window of `n` samples copied over the first `n` of two arrays: whether it was, and the arrays and the queue
afterwards. Nothing is taken if an array is shorter. -/
def drainWindow (q : SampleQueue) (n : Nat) (policy : DrainPolicy) (out : Channels) : Bool × Channels × SampleQueue :=
  if n ≤ out.i.size ∧ n ≤ out.q.size then
    match q.drain? n policy with
    | some (window, rest) => (true, out.overwrite window, rest)
    | none => (false, out, q)
  else (false, out, q)

/-! ## Sizes and capacities -/

theorem size_eq_i (q : SampleQueue) : q.size = q.channels.i.size := by simp [size, Channels.size, q.size_eq]

theorem size_le_capacity (q : SampleQueue) : q.size ≤ q.capacity := q.size_eq_i ▸ q.size_le

theorem overflow_eq (q : SampleQueue) (n : Nat) : q.overflow n = q.size + n - q.capacity := by
  rw [overflow, size_eq_i]

@[simp] theorem capacity_ofCapacity (capacity : Nat) : (ofCapacity capacity).capacity = max capacity 1 := rfl

@[simp] theorem capacity_push (q : SampleQueue) (new : Channels) : (q.push new).capacity = q.capacity := rfl

@[simp] theorem capacity_clear (q : SampleQueue) : q.clear.capacity = q.capacity := rfl

@[simp] theorem dropped_push (q : SampleQueue) (new : Channels) :
    (q.push new).dropped = q.dropped + q.overflow new.size := rfl

@[simp] theorem dropped_clear (q : SampleQueue) : q.clear.dropped = q.dropped := rfl

/-! ## The list of queued samples -/

@[simp] theorem length_toList (q : SampleQueue) : q.toList.length = q.size := Channels.length_toList _

@[simp] theorem toList_ofCapacity (capacity : Nat) : (ofCapacity capacity).toList = [] := rfl

@[simp] theorem toList_clear (q : SampleQueue) : q.clear.toList = [] := rfl

@[simp] theorem toList_push (q : SampleQueue) (new : Channels) :
    (q.push new).toList = (q.toList ++ new.toList).drop (q.overflow new.size) := by
  have whole : (new.take new.size).toList = new.toList := by
    rw [Channels.toList_take, List.take_of_length_le (by simp)]
  rw [toList, push, Channels.toList_drop, Channels.toList_append q.size_eq, whole, toList]

theorem size_push (q : SampleQueue) (new : Channels) : (q.push new).size = min (q.size + new.size) q.capacity := by
  rw [← length_toList, toList_push, List.length_drop, List.length_append, length_toList, Channels.length_toList,
    overflow_eq]
  omega

/-! ## Drained windows -/

theorem drain?_eq_none_iff {q : SampleQueue} {n : Nat} {policy : DrainPolicy} :
    q.drain? n policy = none ↔ n = 0 ∨ q.size < n := by
  simp only [drain?, ite_eq_right_iff, reduceCtorEq, imp_false]
  omega

/-- A window is taken exactly if it is wanted, fits the arrays and is there. -/
theorem drainWindow_taken_iff {q : SampleQueue} {n : Nat} {policy : DrainPolicy} {out : Channels} :
    (q.drainWindow n policy out).1 = true ↔ 0 < n ∧ n ≤ out.i.size ∧ n ≤ out.q.size ∧ n ≤ q.size := by
  unfold drainWindow
  split
  · cases h : q.drain? n policy with
    | none =>
      have := drain?_eq_none_iff.1 h
      simp only [Bool.false_eq_true, false_iff]
      omega
    | some result =>
      have there : ¬q.drain? n policy = none := by simp [h]
      rw [drain?_eq_none_iff] at there
      simp only [true_iff]
      omega
  · simp only [Bool.false_eq_true, false_iff]
    omega

/-- Without a window everything stays. -/
theorem drainWindow_refused {q : SampleQueue} {n : Nat} {policy : DrainPolicy} {out : Channels}
    (h : (q.drainWindow n policy out).1 = false) : q.drainWindow n policy out = (false, out, q) := by
  unfold drainWindow at h ⊢
  split
  · cases taken : q.drain? n policy with
    | none => rfl
    | some result => simp_all
  · rfl

/-- What a drain of `n` does: the oldest `n` samples over the beginning of the arrays, whose rest stays, and the discarded
samples gone from the queue. -/
structure Drains (q : SampleQueue) (n : Nat) (policy : DrainPolicy) (out filled : Channels) (rest : SampleQueue) :
    Prop where
  pos : 0 < n
  le_size : n ≤ q.size
  filled_i : filled.i.toList = (q.toList.take n).map Sample.i ++ out.i.toList.drop n
  filled_q : filled.q.toList = (q.toList.take n).map Sample.q ++ out.q.toList.drop n
  toList_rest : rest.toList = q.toList.drop (policy.discarded n q.size)
  capacity_rest : rest.capacity = q.capacity
  dropped_rest : rest.dropped = q.dropped

theorem drains_of_drainWindow {q rest : SampleQueue} {n : Nat} {policy : DrainPolicy} {out filled : Channels}
    (h : q.drainWindow n policy out = (true, filled, rest)) : q.Drains n policy out filled rest := by
  obtain ⟨pos, -, -, le⟩ := drainWindow_taken_iff.1 (congrArg Prod.fst h)
  have held : n ≤ q.channels.i.size ∧ n ≤ q.channels.q.size := by
    have := q.size_eq_i
    have := q.size_eq
    omega
  unfold drainWindow at h
  split at h
  · simp only [drain?, pos, le, and_self, ↓reduceIte, Prod.mk.injEq, true_and] at h
    obtain ⟨rfl, rfl⟩ := h
    refine ⟨pos, le, ?_, ?_, ?_, rfl, rfl⟩
    · simp [Channels.overwrite, Channels.take, Channels.toList_i q.size_eq, toList, held, List.take_of_length_le]
    · simp [Channels.overwrite, Channels.take, Channels.toList_q q.size_eq, toList, held, List.take_of_length_le]
    · simp [toList]
  · cases h

@[simp] theorem capacity_drainWindow (q : SampleQueue) (n : Nat) (policy : DrainPolicy) (out : Channels) :
    (q.drainWindow n policy out).2.2.capacity = q.capacity := by
  rcases h : q.drainWindow n policy out with ⟨_ | _, filled, rest⟩
  · have refused := drainWindow_refused (congrArg Prod.fst h)
    rw [h] at refused
    cases refused
    rfl
  · exact (drains_of_drainWindow h).capacity_rest

/-- The arrays keep their lengths. -/
theorem size_drainWindow (q : SampleQueue) (n : Nat) (policy : DrainPolicy) (out : Channels) :
    (q.drainWindow n policy out).2.1.i.size = out.i.size ∧ (q.drainWindow n policy out).2.1.q.size = out.q.size := by
  rcases h : q.drainWindow n policy out with ⟨_ | _, filled, rest⟩
  · have refused := drainWindow_refused (congrArg Prod.fst h)
    rw [h] at refused
    cases refused
    exact ⟨rfl, rfl⟩
  · obtain ⟨-, long_i, long_q, le⟩ := drainWindow_taken_iff.1 (congrArg Prod.fst h)
    have d := drains_of_drainWindow h
    have size_i := congrArg List.length d.filled_i
    have size_q := congrArg List.length d.filled_q
    simp only [Array.length_toList, List.length_append, List.length_map, List.length_take, length_toList,
      List.length_drop] at size_i size_q
    dsimp only
    exact ⟨by omega, by omega⟩

namespace Drains

variable {q rest : SampleQueue} {n : Nat} {policy : DrainPolicy} {out filled : Channels}

theorem size_rest (d : q.Drains n policy out filled rest) : rest.size = q.size - policy.discarded n q.size := by
  rw [← length_toList, d.toList_rest, List.length_drop, length_toList]

/-- The window is read off the arrays. -/
theorem take_toList_filled (d : q.Drains n policy out filled rest) : filled.toList.take n = q.toList.take n := by
  have long : min n q.size = n := Nat.min_eq_left d.le_size
  rw [Channels.toList, d.filled_i, d.filled_q, List.take_zipWith, List.take_left' (by simp [long]),
    List.take_left' (by simp [long]), List.zipWith_map]
  simp

end Drains

end SampleQueue

end Panadapter
