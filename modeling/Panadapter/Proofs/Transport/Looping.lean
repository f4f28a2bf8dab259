import Panadapter.Proofs.Transport.Replay

/-!
# Looped replay

A looped replay goes on at the beginning when a poll finds no bytes left. If it finds less than a word, it ends like any
other replay.

* A looped replay delivers its capture over and over exactly if what is left after the last full buffer is nothing, or a
  word at least (`looped_replay_endless_iff`).
-/

namespace Panadapter

/-- Whether answers are buffers with words in them, which are the beginning of the given words over and over. -/
def Endless (words : List Int16) (answers : List (Option (Array Int16))) : Prop :=
  ∃ buffers : List (Array Int16), answers = buffers.map some ∧ (∀ b ∈ buffers, 0 < b.size)
    ∧ ∃ passes, buffers.flatMap Array.toList <+: (List.replicate passes words).flatten

namespace SampleFormat

variable {f : SampleFormat} {count : Nat}

theorem not_torn_iff : ¬f.Torn count ↔ count % f.blockBytes = 0 ∨ f.wordBytes ≤ count % f.blockBytes := by
  unfold Torn
  omega

theorem not_torn_sub (whole : ¬f.Torn count) : ¬f.Torn (count - f.blockBytes) := by
  by_cases full : f.blockBytes ≤ count
  · rwa [Torn, ← Nat.mod_eq_sub_mod full]
  · rw [Nat.sub_eq_zero_of_le (by omega), Torn, Nat.zero_mod]
    omega

/-- Nothing else than a word or more, or nothing. -/
theorem eq_zero_of_not_torn (whole : ¬f.Torn count) (less : count < f.wordBytes) : count = 0 := by
  have := f.wordBytes_le_blockBytes
  rw [Torn, Nat.mod_eq_of_lt (by omega)] at whole
  omega

end SampleFormat

/-- Of a beginning and passes that are not empty, as many as are looked at are enough. -/
theorem take_append_passes {α : Type} (first : List α) {pass : List α} (ne : pass ≠ []) (n : Nat) :
    (first ++ (List.replicate (n + 1) pass).flatten).take n = (first ++ (List.replicate n pass).flatten).take n := by
  have long : n ≤ (first ++ (List.replicate n pass).flatten).length := by
    have pos := List.length_pos_iff.2 ne
    have := Nat.le_mul_of_pos_right n pos
    simp
    omega
  rw [List.replicate_succ', List.flatten_append, List.flatten_singleton, ← List.append_assoc,
    List.take_append_of_le_length long]

namespace Replay

variable {r : Replay} {f : SampleFormat} {bytes : List UInt8} {p : Nat}

/-- The replay after polls, one after the other. -/
def polled (r : Replay) (waits : List Nat) : Replay := r.nextAll (waits.map .poll)

/-- Where nothing is left, a poll gives the first buffer again. -/
theorem Reads.poll_of_spent (h : r.Reads f bytes true) (s : r.Stands p) (word : f.wordBytes ≤ bytes.length)
    (spent : bytes.drop p = []) (wait : Nat) : r.answer wait = some (f.decode (bytes.take f.blockBytes)).toArray
      ∧ (r.next (.poll wait)).Stands (bytes.take f.blockBytes).length := by
  have block := Capture.nextBlock_of_rewound h.looped (by rw [s.position]; exact spent)
  rw [h.format] at block
  have poll := h.poll_of_le s (by rw [block]; exact SampleFormat.le_length_take word) wait
  rwa [block] at poll

/-- What is left of the capture is delivered, and then the capture over and over. -/
theorem Reads.answers_looped (h : r.Reads f bytes true) (s : r.Stands p) (word : f.wordBytes ≤ bytes.length)
    (whole : ¬f.Torn bytes.length) (left : ¬f.Torn (bytes.drop p).length) (waits : List Nat) :
    r.answers waits = ((f.buffers (bytes.drop p)
        ++ (List.replicate waits.length (f.buffers bytes)).flatten).take waits.length).map some
      ∧ (r.polled waits).capture.exhausted = false := by
  induction waits generalizing r p with
  | nil => exact ⟨rfl, s.going⟩
  | cons wait rest ih =>
    have pass := SampleFormat.buffers_of_le word
    have ne : f.buffers bytes ≠ [] := by
      rw [pass]
      exact List.cons_ne_nil _ _
    by_cases less : (bytes.drop p).length < f.wordBytes
    · -- Nothing is left, so that this poll goes on at the beginning.
      have spent : bytes.drop p = [] := List.eq_nil_of_length_eq_zero (SampleFormat.eq_zero_of_not_torn left less)
      obtain ⟨delivered, stands⟩ := h.poll_of_spent s word spent wait
      have again := drop_add_length_take bytes 0 f.blockBytes
      rw [Nat.zero_add, List.drop_zero] at again
      obtain ⟨later, going⟩ := ih (h.next (.poll wait)) stands (by
        rw [again, List.length_drop]
        exact SampleFormat.not_torn_sub whole)
      refine ⟨?_, going⟩
      rw [answers, delivered, later, again, SampleFormat.buffers_of_lt less, List.nil_append, List.length_cons,
        List.replicate_succ, List.flatten_cons, pass, List.cons_append, List.take_succ_cons, List.map_cons]
    · have long : f.wordBytes ≤ (bytes.drop p).length := Nat.not_lt.1 less
      obtain ⟨delivered, stands⟩ := h.poll_of_more s long wait
      obtain ⟨later, going⟩ := ih (h.next (.poll wait)) stands (by
        rw [drop_add_length_take, List.length_drop]
        exact SampleFormat.not_torn_sub left)
      refine ⟨?_, going⟩
      rw [answers, delivered, later, drop_add_length_take, SampleFormat.buffers_of_le long, List.length_cons,
        List.cons_append, List.take_succ_cons, List.map_cons, take_append_passes _ ne]

theorem flatMap_passes (bytes : List UInt8) (n : Nat) :
    ((List.replicate n (f.buffers bytes)).flatten).flatMap Array.toList
      = (List.replicate n (f.decode bytes)).flatten := by
  induction n with
  | zero => rfl
  | succ n ih =>
    rw [List.replicate_succ, List.flatten_cons, List.flatMap_append, ih, SampleFormat.flatMap_buffers]
    rfl

/-- After a start a looped replay delivers the capture over and over. -/
theorem Reads.endless (h : r.Reads f bytes true) (word : f.wordBytes ≤ bytes.length) (whole : ¬f.Torn bytes.length)
    (wait : Nat) (waits : List Nat) : Endless (f.decode bytes) ((r.next (.start wait)).answers waits)
      ∧ ((r.next (.start wait)).polled waits).capture.exhausted = false := by
  obtain ⟨delivered, going⟩ := (h.next (.start wait)).answers_looped (.start r wait) word whole whole waits
  have passes : f.buffers (bytes.drop 0) ++ (List.replicate waits.length (f.buffers bytes)).flatten
      = (List.replicate (waits.length + 1) (f.buffers bytes)).flatten := by
    rw [List.drop_zero, List.replicate_succ, List.flatten_cons]
  rw [passes] at delivered
  refine ⟨⟨_, delivered, ?_, waits.length + 1, ?_⟩, going⟩
  · intro b mem
    obtain ⟨pass, inside, mem⟩ := List.mem_flatten.1 (List.mem_of_mem_take mem)
    rw [List.eq_of_mem_replicate inside] at mem
    exact (SampleFormat.size_of_mem_buffers b mem).1
  · obtain ⟨later, split⟩ := List.take_prefix waits.length (List.replicate (waits.length + 1) (f.buffers bytes)).flatten
    refine ⟨later.flatMap Array.toList, ?_⟩
    rw [← List.flatMap_append, split, flatMap_passes]

/-- Part of a word after the last full buffer ends a looped replay. -/
theorem Reads.ends (h : r.Reads f bytes true) (torn : f.Torn bytes.length) (wait : Nat) :
    none ∈ (r.next (.start wait)).answers (List.replicate ((f.buffers bytes).length + 1) 0) := by
  rw [(h.next (.start wait)).answers_of_straight (.start r wait) (.inr torn), List.drop_zero, List.length_replicate]
  have spent : (f.buffers bytes)[(f.buffers bytes).length]? = none := List.getElem?_eq_none (Nat.le_refl _)
  exact List.mem_map.2 ⟨(f.buffers bytes).length, List.mem_range.2 (Nat.lt_succ_self _), spent⟩

end Replay

theorem not_endless_of_mem {words : List Int16} {answers : List (Option (Array Int16))} (nothing : none ∈ answers) :
    ¬Endless words answers := by
  rintro ⟨buffers, rfl, -⟩
  simp at nothing

/-- **Looped replay.** A capture with a word in it that is looped is delivered over and over after every start, exactly
if its last buffer is full or holds a word at least. -/
theorem looped_replay_endless_iff (r : StoredCapture) (looped : r.config.looped = true)
    (word : r.config.format.wordBytes ≤ r.file.bytes.length) :
    ∃ c, Capture.open? r.storage r.config = .ok c ∧ ∀ now history wait,
      (∀ waits, Endless r.words ((((Replay.mk c now).nextAll history).next (.start wait)).answers waits)
        ∧ ((((Replay.mk c now).nextAll history).next (.start wait)).polled waits).capture.exhausted = false)
      ↔ r.file.bytes.length % (dmaBufferWords * r.config.format.wordBytes) = 0
        ∨ r.config.format.wordBytes ≤ r.file.bytes.length % (dmaBufferWords * r.config.format.wordBytes) := by
  refine ⟨r.capture, r.open?_eq, fun now history wait => ?_⟩
  have reads := (Replay.reads_capture r now).nextAll history
  rw [looped] at reads
  rw [← SampleFormat.blockBytes, ← SampleFormat.not_torn_iff]
  constructor
  · intro endless torn
    exact not_endless_of_mem (reads.ends torn wait) (endless _).1
  · intro whole waits
    exact reads.endless word whole wait waits

/-- Three bytes hold a word and part of another one. -/
theorem looped_replay_three_bytes : ∃ c,
    Capture.open? (StoredCapture.ofBytes .ci16 true [1, 2, 3]).storage
        (StoredCapture.ofBytes .ci16 true [1, 2, 3]).config = .ok c
      ∧ ∀ now history wait waits,
        Endless [513] ((((Replay.mk c now).nextAll history).next (.start wait)).answers waits) := by
  obtain ⟨c, opened, endless⟩ := looped_replay_endless_iff (.ofBytes .ci16 true [1, 2, 3]) rfl (by decide)
  exact ⟨c, opened, fun now history wait waits => ((endless now history wait).2 (.inr (by decide)) waits).1⟩

/-- So a looped replay may end: a byte after a full buffer is part of a word. -/
theorem not_forall_looped_endless : ¬∀ r : StoredCapture, r.config.looped = true →
    r.config.format.wordBytes ≤ r.file.bytes.length → ∀ c, Capture.open? r.storage r.config = .ok c →
    ∀ now wait waits, Endless r.words (((Replay.mk c now).next (.start wait)).answers waits) := by
  intro all
  have length : (List.replicate 8193 (0 : UInt8)).length = 8193 := List.length_replicate
  have torn : SampleFormat.ci16.Torn (List.replicate 8193 (0 : UInt8)).length := by
    rw [length]
    exact ⟨by decide, by decide⟩
  have reads := Replay.reads_capture (.ofBytes .ci16 true (List.replicate 8193 0)) 0
  have endless := all (.ofBytes .ci16 true (List.replicate 8193 0)) rfl (by
    show 2 ≤ (List.replicate 8193 (0 : UInt8)).length
    omega) _ (StoredCapture.open?_eq _) 0 0
  exact not_endless_of_mem (reads.ends torn 0) (endless _)

end Panadapter
