import Panadapter.Proofs.Transport.Decoding

/-!
# Calls of a replay

A replay is started, polled and stopped in any order, and the clock of its caller does not run backwards (`Replay`). The
capture is a file that a configuration names, without pacing (`StoredCapture`).

* Whatever the calls before, a replay that is started delivers the buffers of the capture one after the other, unless it
  goes on at the beginning (`Replay.Reads.answers_of_straight`).
* Replayed once, these are all whole words of the capture, in full buffers but for the last, and then nothing; without a
  start, or after a stop, there is nothing either (`replay_delivers_whole`).
-/

namespace Panadapter

/-- A file in a storage and a configuration that replays it without pacing. -/
structure StoredCapture where
  storage : Storage
  config : CaptureConfig
  file : File
  found : storage.locate config.path = .ok (.file file)
  unpaced : config.sampleRate = 0

namespace StoredCapture

theorem locate_write (file : File) :
    (Storage.empty.write "capture.iq" file).locate "capture.iq" = .ok (.file file) := by
  rfl

/-- A stored capture with the given bytes. -/
def ofBytes (format : SampleFormat) (looped : Bool) (bytes : List UInt8) : StoredCapture where
  storage := Storage.empty.write "capture.iq" { bytes }
  config := { path := "capture.iq", format, sampleRate := 0, looped }
  file := { bytes }
  found := locate_write { bytes }
  unpaced := rfl

variable (r : StoredCapture)

/-- The whole words of the capture. -/
def words : List Int16 := r.config.format.decode r.file.bytes

/-- The replay as it is opened. -/
def capture : Capture where
  device := r.config.path
  format := r.config.format
  content := .ok r.file.bytes
  position := 0
  looped := r.config.looped
  armed := false
  exhausted := false
  pacer := .unpaced

theorem open?_eq : Capture.open? r.storage r.config = .ok r.capture := by
  have unpaced : Pacer.ofRate (dmaBufferWords / 2) (Float.ofNat 0) = .unpaced := by decide +kernel
  rw [Capture.open?, r.found, r.unpaced, unpaced]
  rfl

end StoredCapture

/-! ## Calls -/

/-- A call, so long after the call before. -/
inductive ReplayCall where
  | start (wait : Nat)
  | poll (wait : Nat)
  | stop (wait : Nat)

/-- A replay and the time of its last call. -/
structure Replay where
  capture : Capture
  now : Nat

/-- Whether a replay is on after a call. -/
def ReplayCall.switch (on : Bool) : ReplayCall → Bool
  | start _ => true
  | poll _ => on
  | stop _ => false

/-- Whether there is a start among calls, and no stop after it. -/
def ReplayCall.isOn (calls : List ReplayCall) : Bool := calls.foldl switch false

namespace Replay

/-- What a poll gives. -/
def answer (r : Replay) (wait : Nat) : Option (Array Int16) := (r.capture.poll (r.now + wait)).1

/-- The replay after a call. -/
def next (r : Replay) : ReplayCall → Replay
  | .start wait => ⟨(r.capture.start (r.now + wait)).2, r.now + wait⟩
  | .poll wait => ⟨(r.capture.poll (r.now + wait)).2.2, r.now + wait⟩
  | .stop wait => ⟨r.capture.stop, r.now + wait⟩

/-- The replay after calls in order. -/
def nextAll (r : Replay) (calls : List ReplayCall) : Replay := calls.foldl next r

/-- What polls give, one after the other. -/
def answers (r : Replay) : List Nat → List (Option (Array Int16))
  | [] => []
  | wait :: rest => r.answer wait :: (r.next (.poll wait)).answers rest

/-- A replay of bytes whose clock has not run backwards. -/
structure Reads (r : Replay) (f : SampleFormat) (bytes : List UInt8) (looped : Bool) : Prop where
  format : r.capture.format = f
  content : r.capture.content = .ok bytes
  looped : r.capture.looped = looped
  period : r.capture.pacer.period = 0
  started : ∀ s ∈ r.capture.pacer.started, s ≤ r.now

/-- A replay that delivers, and where it stands. -/
structure Stands (r : Replay) (position : Nat) : Prop where
  armed : r.capture.armed = true
  going : r.capture.exhausted = false
  position : r.capture.position = position

variable {r : Replay} {f : SampleFormat} {bytes : List UInt8} {looped : Bool} {p : Nat}

theorem reads_capture (r : StoredCapture) (now : Nat) :
    Reads ⟨r.capture, now⟩ r.config.format r.file.bytes r.config.looped :=
  ⟨rfl, rfl, rfl, rfl, by rintro s ⟨⟩⟩

theorem Stands.start (r : Replay) (wait : Nat) : (r.next (.start wait)).Stands 0 := ⟨rfl, rfl, rfl⟩

/-- A replay at rest, or at its end, delivers nothing and stays as it is. -/
theorem poll_of_quiet {c : Capture} (quiet : c.armed = false ∨ c.exhausted = true) (now : Nat) :
    c.poll now = (none, [], c) := by
  have quiet : (!c.armed || c.exhausted) = true := by
    cases quiet with
    | inl rest => rw [rest]; rfl
    | inr spent => rw [spent, Bool.or_true]
  rw [Capture.poll, if_pos quiet]

theorem answers_of_exhausted (spent : r.capture.exhausted = true) (waits : List Nat) :
    r.answers waits = (List.range waits.length).map fun _ => none := by
  induction waits generalizing r with
  | nil => rfl
  | cons wait rest ih =>
    have quiet := poll_of_quiet (.inr spent) (r.now + wait)
    have later : (r.next (.poll wait)).capture.exhausted = true := by
      rw [next, quiet]
      exact spent
    rw [answers, answer, quiet, ih later, List.length_cons, List.range_succ_eq_map, List.map_cons, List.map_map]
    rfl

/-- What a poll of a replay that delivers does: fewer bytes than a word end it. -/
theorem poll_of_going {c : Capture} {now : Nat} (content : c.content = .ok bytes) (armed : c.armed = true)
    (going : c.exhausted = false) (due : (c.pacer.release now).1 = true) :
    c.poll now =
      if (c.nextBlock bytes).1.length < c.format.wordBytes then
        (none, Log.info ("end of file: " ++ c.device),
          { c with pacer := (c.pacer.release now).2, position := (c.nextBlock bytes).2, exhausted := true })
      else
        (some (c.format.decode (c.nextBlock bytes).1).toArray, [],
          { c with pacer := (c.pacer.release now).2, position := (c.nextBlock bytes).2 }) := by
  rcases released : c.pacer.release now with ⟨due', pacer⟩
  rw [released] at due
  cases due
  rw [Capture.poll, armed, going, released, content]
  rfl

theorem started_release {q : Pacer} {now : Nat} (before : ∀ s ∈ q.started, s ≤ now) :
    (q.release now).2.period = q.period ∧ ∀ s ∈ (q.release now).2.started, s ≤ now := by
  have started : (q.release now).2.started = some (q.started.getD now) ∧ (q.release now).2.period = q.period := by
    unfold Pacer.release
    dsimp only
    split <;> exact ⟨rfl, rfl⟩
  refine ⟨started.2, fun s mem => ?_⟩
  rw [started.1] at mem
  cases mem
  cases known : q.started with
  | none => exact Nat.le_refl _
  | some s => exact before s known

namespace Reads

theorem due (h : r.Reads f bytes looped) (wait : Nat) : (r.capture.pacer.release (r.now + wait)).1 = true :=
  Pacer.release_of_period_eq_zero h.period fun s mem => Nat.le_trans (h.started s mem) (Nat.le_add_right _ _)

/-- No call changes what is read. -/
theorem next (h : r.Reads f bytes looped) (call : ReplayCall) : (r.next call).Reads f bytes looped := by
  cases call with
  | start wait => exact ⟨h.format, h.content, h.looped, h.period, by rintro s ⟨⟩; exact Nat.le_refl _⟩
  | stop wait =>
    exact ⟨h.format, h.content, h.looped, h.period, fun s mem => Nat.le_trans (h.started s mem) (Nat.le_add_right _ _)⟩
  | poll wait =>
    have before : ∀ s ∈ r.capture.pacer.started, s ≤ r.now + wait :=
      fun s mem => Nat.le_trans (h.started s mem) (Nat.le_add_right _ _)
    by_cases quiet : r.capture.armed = false ∨ r.capture.exhausted = true
    · rw [Replay.next, poll_of_quiet quiet]
      exact ⟨h.format, h.content, h.looped, h.period, before⟩
    · obtain ⟨armed, going⟩ : r.capture.armed = true ∧ r.capture.exhausted = false := by simpa using quiet
      obtain ⟨period, started⟩ := started_release before
      rw [Replay.next, poll_of_going h.content armed going (h.due wait)]
      split <;> exact ⟨h.format, h.content, h.looped, period.trans h.period, started⟩

theorem nextAll (h : r.Reads f bytes looped) (calls : List ReplayCall) : (r.nextAll calls).Reads f bytes looped := by
  induction calls generalizing r with
  | nil => exact h
  | cons call rest ih => exact ih (h.next call)

end Reads

end Replay

/-! ## Buffers -/

namespace SampleFormat

variable {f : SampleFormat}

/-- The size of a full buffer, in bytes. -/
def blockBytes (f : SampleFormat) : Nat := dmaBufferWords * f.wordBytes

theorem wordBytes_le_blockBytes : f.wordBytes ≤ f.blockBytes := by
  cases f <;> decide

/-- A buffer holds a word if there is one. -/
theorem le_length_take {bytes : List UInt8} (enough : f.wordBytes ≤ bytes.length) :
    f.wordBytes ≤ (bytes.take f.blockBytes).length := by
  rw [List.length_take]
  exact Nat.le_min.2 ⟨wordBytes_le_blockBytes, enough⟩

/-- The buffers that bytes are cut into, as long as there is a whole word left. -/
def buffers (f : SampleFormat) (bytes : List UInt8) : List (Array Int16) :=
  if bytes.length < f.wordBytes then []
  else (f.decode (bytes.take f.blockBytes)).toArray :: f.buffers (bytes.drop f.blockBytes)
termination_by bytes.length
decreasing_by
  have := f.wordBytes_pos
  have := f.wordBytes_le_blockBytes
  rw [List.length_drop]
  omega

/-- Whether the last buffer out of so many bytes is less than a word. -/
def Torn (f : SampleFormat) (count : Nat) : Prop := 0 < count % f.blockBytes ∧ count % f.blockBytes < f.wordBytes

theorem Torn.ne_nil {bytes : List UInt8} (torn : f.Torn bytes.length) : bytes ≠ [] := by
  intro spent
  rw [spent] at torn
  exact absurd torn.1 (by simp)

theorem Torn.sub {count : Nat} (torn : f.Torn count) (enough : f.wordBytes ≤ count) :
    f.Torn (count - f.blockBytes) := by
  have full : f.blockBytes ≤ count := by
    by_contra less
    rw [Torn, Nat.mod_eq_of_lt (by omega)] at torn
    omega
  rwa [Torn, ← Nat.mod_eq_sub_mod full]

theorem buffers_of_lt {bytes : List UInt8} (less : bytes.length < f.wordBytes) : f.buffers bytes = [] := by
  rw [buffers, if_pos less]

theorem buffers_of_le {bytes : List UInt8} (enough : f.wordBytes ≤ bytes.length) :
    f.buffers bytes = (f.decode (bytes.take f.blockBytes)).toArray :: f.buffers (bytes.drop f.blockBytes) := by
  rw [buffers, if_neg (Nat.not_lt.2 enough)]

/-- A full buffer ends between two words. -/
theorem decode_take_append_drop (bytes : List UInt8) :
    f.decode (bytes.take f.blockBytes) ++ f.decode (bytes.drop f.blockBytes) = f.decode bytes := by
  by_cases full : f.blockBytes ≤ bytes.length
  · have whole : f.wordBytes ∣ (bytes.take f.blockBytes).length := by
      rw [List.length_take, Nat.min_eq_left full]
      exact Nat.dvd_mul_left _ _
    rw [← decode_append whole, List.take_append_drop]
  · have none : f.decode [] = [] := decode_of_lt f.wordBytes_pos
    rw [List.take_of_length_le (by omega), List.drop_eq_nil_of_le (by omega), none, List.append_nil]

theorem flatMap_buffers (bytes : List UInt8) : (f.buffers bytes).flatMap Array.toList = f.decode bytes := by
  fun_induction buffers f bytes with
  | case1 bytes less => rw [decode_of_lt less]; rfl
  | case2 bytes enough ih => rw [List.flatMap_cons, ih, decode_take_append_drop]

theorem length_decode_take (bytes : List UInt8) :
    (f.decode (bytes.take f.blockBytes)).length = min dmaBufferWords (bytes.length / f.wordBytes) := by
  rw [length_decode, List.length_take]
  by_cases full : f.blockBytes ≤ bytes.length
  · rw [Nat.min_eq_left full, blockBytes, Nat.mul_div_cancel _ f.wordBytes_pos, Nat.min_eq_left]
    exact (Nat.le_div_iff_mul_le f.wordBytes_pos).2 full
  · rw [Nat.min_eq_right (by omega), Nat.min_eq_right]
    exact Nat.le_of_lt ((Nat.div_lt_iff_lt_mul f.wordBytes_pos).2 (by rw [← blockBytes]; omega))

theorem size_of_mem_buffers {bytes : List UInt8} : ∀ b ∈ f.buffers bytes, 0 < b.size ∧ b.size ≤ dmaBufferWords := by
  fun_induction buffers f bytes with
  | case1 bytes less => intro b mem; cases mem
  | case2 bytes enough ih =>
    intro b mem
    rcases List.mem_cons.1 mem with rfl | later
    · have := Nat.div_pos (Nat.le_of_not_lt enough) f.wordBytes_pos
      rw [List.size_toArray, length_decode_take]
      exact ⟨Nat.lt_min.2 ⟨by decide, this⟩, Nat.min_le_left _ _⟩
    · exact ih b later

theorem size_of_mem_dropLast_buffers {bytes : List UInt8} :
    ∀ b ∈ (f.buffers bytes).dropLast, b.size = dmaBufferWords := by
  fun_induction buffers f bytes with
  | case1 bytes less => intro b mem; cases mem
  | case2 bytes enough ih =>
    intro b mem
    by_cases last : f.buffers (bytes.drop f.blockBytes) = []
    · rw [last] at mem
      cases mem
    · rw [List.dropLast_cons_of_ne_nil last] at mem
      rcases List.mem_cons.1 mem with rfl | later
      · -- A buffer that is not full leaves no bytes for another one.
        have more : f.wordBytes ≤ (bytes.drop f.blockBytes).length := by
          by_contra less
          exact last (buffers_of_lt (Nat.lt_of_not_le less))
        have := f.wordBytes_pos
        rw [List.length_drop] at more
        rw [List.size_toArray, length_decode_take, Nat.min_eq_left]
        exact (Nat.le_div_iff_mul_le f.wordBytes_pos).2 (by rw [← blockBytes]; omega)
      · exact ih b later

end SampleFormat

/-! ## Polls one after the other -/

namespace Capture

variable {c : Capture} {bytes : List UInt8}

theorem nextBlock_of_straight (straight : c.looped = false ∨ bytes.drop c.position ≠ []) :
    c.nextBlock bytes = ((bytes.drop c.position).take c.format.blockBytes,
      c.position + ((bytes.drop c.position).take c.format.blockBytes).length) := by
  have at_ : c.blockAt bytes c.position = ((bytes.drop c.position).take c.format.blockBytes,
      c.position + ((bytes.drop c.position).take c.format.blockBytes).length) := rfl
  have pos : 0 < c.format.blockBytes := Nat.lt_of_lt_of_le c.format.wordBytes_pos SampleFormat.wordBytes_le_blockBytes
  rw [nextBlock, at_]
  cases block : (bytes.drop c.position).take c.format.blockBytes with
  | nil =>
    rcases straight with once | more
    · rw [once]
      rfl
    · exact absurd block (by simp [List.take_eq_nil_iff, more]; omega)
  | cons b rest => rfl

theorem nextBlock_of_rewound (looped : c.looped = true) (spent : bytes.drop c.position = []) :
    c.nextBlock bytes = (bytes.take c.format.blockBytes, (bytes.take c.format.blockBytes).length) := by
  have at_ : c.blockAt bytes c.position = ([], c.position) := by
    rw [blockAt, spent, List.take_nil]
    rfl
  rw [nextBlock, at_, looped]
  show c.blockAt bytes 0 = _
  rw [blockAt, List.drop_zero, Nat.zero_add]
  rfl

end Capture

theorem drop_add_length_take {α : Type} (l : List α) (p n : Nat) :
    l.drop (p + ((l.drop p).take n).length) = (l.drop p).drop n := by
  rw [← List.drop_drop, List.length_take]
  by_cases full : n ≤ (l.drop p).length
  · rw [Nat.min_eq_left full]
  · rw [Nat.min_eq_right (by omega), List.drop_length, List.drop_eq_nil_of_le (by omega)]

namespace Replay

variable {r : Replay} {f : SampleFormat} {bytes : List UInt8} {looped : Bool} {p : Nat}

namespace Reads

theorem poll_of_lt (h : r.Reads f bytes looped) (s : r.Stands p)
    (less : (r.capture.nextBlock bytes).1.length < f.wordBytes) (wait : Nat) :
    r.answer wait = none ∧ (r.next (.poll wait)).capture.exhausted = true := by
  have poll := poll_of_going h.content s.armed s.going (h.due wait)
  rw [h.format, if_pos less] at poll
  rw [answer, Replay.next, poll]
  exact ⟨rfl, rfl⟩

theorem poll_of_le (h : r.Reads f bytes looped) (s : r.Stands p)
    (enough : f.wordBytes ≤ (r.capture.nextBlock bytes).1.length) (wait : Nat) :
    r.answer wait = some (f.decode (r.capture.nextBlock bytes).1).toArray
      ∧ (r.next (.poll wait)).Stands (r.capture.nextBlock bytes).2 := by
  have poll := poll_of_going h.content s.armed s.going (h.due wait)
  rw [h.format, if_neg (Nat.not_lt.2 enough)] at poll
  rw [answer, Replay.next, poll]
  exact ⟨rfl, s.armed, s.going, rfl⟩

/-- Where there is a word left, a poll gives the next buffer. -/
theorem poll_of_more (h : r.Reads f bytes looped) (s : r.Stands p) (enough : f.wordBytes ≤ (bytes.drop p).length)
    (wait : Nat) : r.answer wait = some (f.decode ((bytes.drop p).take f.blockBytes)).toArray
      ∧ (r.next (.poll wait)).Stands (p + ((bytes.drop p).take f.blockBytes).length) := by
  have more : bytes.drop p ≠ [] := by
    intro spent
    rw [spent] at enough
    exact absurd enough (Nat.not_le.2 f.wordBytes_pos)
  have block := Capture.nextBlock_of_straight (.inr (by rw [s.position]; exact more))
  rw [h.format, s.position] at block
  have poll := h.poll_of_le s (by rw [block]; exact SampleFormat.le_length_take enough) wait
  rwa [block] at poll

/-- Where there is less than a word left, a poll ends the replay, unless it is looped and nothing is left. -/
theorem poll_of_end (h : r.Reads f bytes looped) (s : r.Stands p)
    (straight : looped = false ∨ bytes.drop p ≠ []) (less : (bytes.drop p).length < f.wordBytes)
    (wait : Nat) : r.answer wait = none ∧ (r.next (.poll wait)).capture.exhausted = true := by
  have ahead : r.capture.looped = false ∨ bytes.drop r.capture.position ≠ [] := by
    rw [h.looped, s.position]
    exact straight
  have block := Capture.nextBlock_of_straight ahead
  rw [h.format, s.position] at block
  have short : ((bytes.drop p).take f.blockBytes).length < f.wordBytes :=
    Nat.lt_of_le_of_lt (List.length_take_le' _ _) less
  exact h.poll_of_lt s (by rw [block]; exact short) wait

/-- A replay that does not go on at the beginning delivers what is left of the capture, buffer by buffer. -/
theorem answers_of_straight (h : r.Reads f bytes looped) (s : r.Stands p)
    (straight : looped = false ∨ f.Torn (bytes.drop p).length) (waits : List Nat) :
    r.answers waits = (List.range waits.length).map fun k => (f.buffers (bytes.drop p))[k]? := by
  induction waits generalizing r p with
  | nil => rfl
  | cons wait rest ih =>
    rw [answers, List.length_cons, List.range_succ_eq_map, List.map_cons, List.map_map]
    by_cases less : (bytes.drop p).length < f.wordBytes
    · obtain ⟨nothing, spent⟩ := h.poll_of_end s (straight.imp_right SampleFormat.Torn.ne_nil) less wait
      rw [nothing, answers_of_exhausted spent, SampleFormat.buffers_of_lt less]
      rfl
    · obtain ⟨delivered, stands⟩ := h.poll_of_more s (Nat.not_lt.1 less) wait
      have later := ih (h.next (.poll wait)) stands (straight.imp_right fun torn => by
        rw [drop_add_length_take, List.length_drop]
        exact torn.sub (Nat.not_lt.1 less))
      rw [drop_add_length_take] at later
      rw [delivered, later, SampleFormat.buffers_of_le (Nat.not_lt.1 less)]
      rfl

/-- After a start the capture is delivered from its beginning, whatever the calls before. -/
theorem answers_start (h : r.Reads f bytes false) (history : List ReplayCall) (wait : Nat) (waits : List Nat) :
    ((r.nextAll history).next (.start wait)).answers waits
      = (List.range waits.length).map fun k => (f.buffers bytes)[k]? :=
  ((h.nextAll history).next (.start wait)).answers_of_straight (.start _ wait) (.inl rfl) waits

end Reads

/-! ## At rest -/

theorem armed_poll (c : Capture) (now : Nat) : (c.poll now).2.2.armed = c.armed := by
  unfold Capture.poll
  split
  · rfl
  · rcases c.pacer.release now with ⟨_ | _, pacer⟩
    · rfl
    · cases content : c.content with
      | error e => rfl
      | ok bytes =>
        dsimp only
        split <;> rfl

/-- Whether a replay delivers is a matter of its starts and stops. -/
theorem armed_nextAll (r : Replay) (calls : List ReplayCall) :
    (r.nextAll calls).capture.armed = calls.foldl ReplayCall.switch r.capture.armed := by
  induction calls generalizing r with
  | nil => rfl
  | cons call rest ih =>
    refine (ih (r.next call)).trans ?_
    cases call with
    | poll wait =>
      show rest.foldl _ (r.capture.poll (r.now + wait)).2.2.armed = _
      rw [armed_poll]
      rfl
    | _ => rfl

end Replay

/-! ## The whole capture -/

/-- A replay that delivers buffers, once after every start, and nothing while it is not on. The buffers are the whole
words of the capture, and all but the last are full. -/
structure StoredCapture.Plays (r : StoredCapture) (c : Capture) (buffers : List (Array Int16)) : Prop where
  decoded : r.config.format.Decodes r.file.bytes (buffers.flatMap Array.toList)
  stored : ∀ words, r.config.format = .ci16 → r.file.bytes = SampleFormat.image words →
    buffers.flatMap Array.toList = words
  full : ∀ b ∈ buffers.dropLast, b.size = dmaBufferWords
  bounded : ∀ b ∈ buffers, 0 < b.size ∧ b.size ≤ dmaBufferWords
  started : ∀ now history wait waits, (((Replay.mk c now).nextAll history).next (.start wait)).answers waits
    = (List.range waits.length).map fun k => buffers[k]?
  silent : ∀ now history, ReplayCall.isOn history = false →
    ∀ wait, ((Replay.mk c now).nextAll history).answer wait = none

/-- **Replay.** A capture that is not looped is delivered as a whole after every start. -/
theorem replay_delivers_whole (r : StoredCapture) (once : r.config.looped = false) :
    ∃ c buffers, Capture.open? r.storage r.config = .ok c ∧ r.Plays c buffers := by
  have words := SampleFormat.flatMap_buffers (f := r.config.format) r.file.bytes
  refine ⟨r.capture, r.config.format.buffers r.file.bytes, r.open?_eq, ?_, ?_, ?_, ?_, ?_, ?_⟩
  · rw [words]
    exact SampleFormat.decodes_decode r.file.bytes
  · rintro stored format bytes
    rw [words, format, bytes, SampleFormat.decode_image]
  · exact SampleFormat.size_of_mem_dropLast_buffers
  · exact SampleFormat.size_of_mem_buffers
  · intro now history wait waits
    have reads := Replay.reads_capture r now
    rw [once] at reads
    exact reads.answers_start history wait waits
  · intro now history off wait
    have rest : ((Replay.mk r.capture now).nextAll history).capture.armed = false :=
      (Replay.armed_nextAll _ history).trans off
    rw [Replay.answer, Replay.poll_of_quiet (.inl rest)]

theorem replay_delivers_pair : ∃ c buffers,
    Capture.open? (StoredCapture.ofBytes .ci16 false (SampleFormat.image [1, -2])).storage
        (StoredCapture.ofBytes .ci16 false (SampleFormat.image [1, -2])).config = .ok c
      ∧ (StoredCapture.ofBytes .ci16 false (SampleFormat.image [1, -2])).Plays c buffers :=
  replay_delivers_whole (.ofBytes .ci16 false (SampleFormat.image [1, -2])) rfl

end Panadapter
