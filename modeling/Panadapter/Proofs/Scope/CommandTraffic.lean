import Mathlib.Data.List.TakeWhile
import Mathlib.Logic.Function.Iterate
import Panadapter.Proofs.Scope.Separation
import Panadapter.Proofs.Text.Lines
import Panadapter.Scope.CommandInput

/-!
# Commands on their way to the scope

One thread reads lines and puts the commands among them into a channel. The presentation loop takes them out before each
frame, all that it finds, and then applies them. A `CommandTraffic` is both at work, a `TrafficEvent` says who goes on,
and a `CommandHistory` is a whole run. Every order of events is a run.

* Undisturbed, the loop does for a frame what `Scope.step` does (`CommandTraffic.proceed_iterate`).
* A line read has one of five ends (`CommandReader.lineRead`).
* So every event keeps the commands in order (`CommandHistory.Faithful.record`), and every run does
  (`commands_in_order`).
-/

namespace Panadapter

/-! ## Lines -/

/-- The command that the characters of a line spell, without the blanks at both ends. A blank line spells none, and
neither does one that begins with `#`. -/
def ScopeCommand.ofLine? (line : List Char) : Option ScopeCommand :=
  let text := Text.trim line
  if text = [] ∨ text.head? = some '#' then none else (parse (String.ofList text)).toOption

namespace CommandLine

/-- The command of a line that is one. -/
def command? : CommandLine → Option ScopeCommand
  | command c => some c
  | _ => none

/-- The command in the bytes of a line. -/
def commandIn? (line : List UInt8) : Option ScopeCommand := (ofBytes line).command?

/-- Whether the bytes of a line are text. -/
def isText (line : List UInt8) : Bool := (Text.ofBytes? line).isSome

theorem isText_encode (line : List Char) : isText (Text.encode line) = true := by
  rw [isText, Text.ofBytes?_encode]
  rfl

theorem ofBytes_eq_unreadable_iff {line : List UInt8} : ofBytes line = unreadable ↔ isText line = false := by
  unfold ofBytes isText
  cases Text.ofBytes? line with
  | none => simp
  | some text =>
    simp only [Option.isSome_some, Bool.true_eq_false, iff_false]
    split <;> try simp
    split <;> simp

theorem commandIn?_of_isText_eq_false {line : List UInt8} (notText : isText line = false) : commandIn? line = none := by
  rw [commandIn?, ofBytes_eq_unreadable_iff.2 notText]
  rfl

/-- The command in a line of text is what its characters spell. -/
theorem commandIn?_encode (line : List Char) : commandIn? (Text.encode line) = ScopeCommand.ofLine? line := by
  rw [commandIn?, ofBytes, Text.ofBytes?_encode, ScopeCommand.ofLine?]
  simp only [String.toList_ofList]
  split
  · simp [*, command?]
  · simp [*, command?]
  · rename_i text notBlank notComment
    have spells : ¬(Text.trim line = [] ∨ (Text.trim line).head? = some '#') := by
      rintro (blank | comment)
      · exact notBlank blank
      · obtain ⟨rest, same⟩ := List.head?_eq_some_iff.1 comment
        exact notComment rest same
    rw [if_neg spells]
    cases ScopeCommand.parse (String.ofList (Text.trim line)) <;> rfl

end CommandLine

/-- What becomes of the next line while the program goes on and the channel is open: there is none, it cannot be read,
it is no command, or it is a command for which there is no room, or there is. -/
inductive LineRead (r : CommandReader) (channel : CommandChannel) : CommandReader → CommandChannel → Prop where
  | ended : r.lines = [] → LineRead r channel r channel
  | unreadable (line : List UInt8) (rest : List (List UInt8)) : r.lines = line :: rest →
      CommandLine.isText line = false → LineRead r channel r.finish channel
  | skipped (line : List UInt8) (rest : List (List UInt8)) : r.lines = line :: rest →
      CommandLine.isText line = true → CommandLine.commandIn? line = none →
      LineRead r channel { r with lines := rest } channel
  | refused (line : List UInt8) (rest : List (List UInt8)) (c : ScopeCommand) : r.lines = line :: rest →
      CommandLine.isText line = true → CommandLine.commandIn? line = some c → channel.isFull = true →
      LineRead r channel { r with lines := rest } channel
  | sent (line : List UInt8) (rest : List (List UInt8)) (c : ScopeCommand) : r.lines = line :: rest →
      CommandLine.isText line = true → CommandLine.commandIn? line = some c → channel.isFull = false →
      LineRead r channel ⟨rest, r.forwarded + 1⟩ (channel.send c)

theorem CommandReader.lineRead (r : CommandReader) (channel : CommandChannel) (going : channel.closed = false) :
    LineRead r channel (r.step false channel).1 (r.step false channel).2.1 := by
  obtain ⟨lines, forwarded⟩ := r
  cases lines with
  | nil => exact .ended rfl
  | cons line rest =>
    have spelled : CommandLine.commandIn? line = (CommandLine.ofBytes line).command? := rfl
    have text : CommandLine.isText line = false ↔ CommandLine.ofBytes line = .unreadable :=
      CommandLine.ofBytes_eq_unreadable_iff.symm
    simp only [step, Bool.false_eq_true, ↓reduceIte, going]
    cases meaning : CommandLine.ofBytes line with
    | unreadable => exact .unreadable line rest rfl (text.2 meaning)
    | nothing =>
      rw [meaning] at spelled text
      exact .skipped line rest rfl (by simpa using text) spelled
    | malformed fault =>
      rw [meaning] at spelled text
      exact .skipped line rest rfl (by simpa using text) spelled
    | command c =>
      rw [meaning] at spelled text
      cases room : channel.isFull with
      | true => exact .refused line rest c rfl (by simpa using text) spelled room
      | false => exact .sent line rest c rfl (by simpa using text) spelled room

/-! ## The reader beside the presentation loop -/

/-- Where the presentation loop stands: between two frames, taking commands out of the channel, or applying those that
it took. -/
inductive LoopPhase where
  | between
  | taking
  | applying

/-- The reader and the presentation loop at work. The `batch` is what the loop has taken out of the channel and not
applied yet, and `limit` how many frames are wanted. -/
structure CommandTraffic where
  reader : CommandReader
  channel : CommandChannel
  phase : LoopPhase
  batch : List ScopeCommand
  scope : Scope
  limit : Option Nat

/-- Who goes on: the reader with a line, the presentation loop, or a worker that writes to a stream of the scope. -/
inductive TrafficEvent where
  | read
  | proceed
  | write (stream : String) (w : StreamWrite)

namespace CommandTraffic

/-- The presentation loop a little further. It takes one command after the other until it finds the channel empty, and
applies one after the other until it can show the frame. -/
def proceed (t : CommandTraffic) : CommandTraffic :=
  match t.phase with
  | .between => if t.scope.isOver false t.limit then t else { t with phase := .taking }
  | .taking =>
    match t.channel.pending with
    | [] => { t with phase := .applying }
    | c :: pending => { t with channel := { t.channel with pending }, batch := t.batch ++ [c] }
  | .applying =>
    match t.batch with
    | [] => { t with scope := (t.scope.step []).2.2, phase := .between }
    | c :: batch => { t with scope := (t.scope.applyLogged c).2, batch }

/-- How things stand after an event. -/
def next (t : CommandTraffic) : TrafficEvent → CommandTraffic
  | .read =>
    let (reader, channel, _) := t.reader.step false t.channel
    { t with reader, channel }
  | .proceed => t.proceed
  | .write stream w => { t with scope := t.scope.receive (.write stream w) }

/-! ## A frame -/

theorem proceed_iterate_taking {t : CommandTraffic} (taking : t.phase = .taking) :
    proceed^[t.channel.pending.length + 1] t
      = { t with channel := t.channel.take.2, batch := t.batch ++ t.channel.pending, phase := .applying } := by
  obtain ⟨reader, ⟨capacity, pending, closed⟩, phase, batch, s, limit⟩ := t
  obtain rfl : phase = .taking := taking
  induction pending generalizing batch with
  | nil => simp [proceed, CommandChannel.take]
  | cons c rest ih => simpa [proceed, CommandChannel.take] using ih (batch ++ [c])

theorem proceed_iterate_applying {t : CommandTraffic} (applying : t.phase = .applying) :
    proceed^[t.batch.length + 1] t
      = { t with scope := (t.scope.step t.batch).2.2, batch := [], phase := .between } := by
  obtain ⟨reader, channel, phase, batch, s, limit⟩ := t
  obtain rfl : phase = .applying := applying
  induction batch generalizing s with
  | nil => rfl
  | cons c rest ih => exact ih (s.applyLogged c).2

/-- A frame that nobody disturbs: the loop takes all waiting commands and makes a step of the scope with them. -/
theorem proceed_iterate {t : CommandTraffic} (taking : t.phase = .taking) (idle : t.batch = []) :
    proceed^[2 * t.channel.pending.length + 2] t
      = { t with
          channel := t.channel.take.2
          scope := (t.scope.step t.channel.take.1).2.2
          phase := .between } := by
  have twice : 2 * t.channel.pending.length + 2 = (t.channel.pending.length + 1) + (t.channel.pending.length + 1) := by
    omega
  let taken : CommandTraffic := { t with channel := t.channel.take.2, batch := t.channel.pending, phase := .applying }
  have shown : proceed^[taken.batch.length + 1] taken = _ := proceed_iterate_applying rfl
  rw [twice, Function.iterate_add_apply, proceed_iterate_taking taking, idle]
  exact shown

end CommandTraffic

/-! ## What is done to the scope -/

/-- What is done to a scope: something comes to it, or it shows a frame. -/
inductive ScopeDeed where
  | input (x : ScopeInput)
  | frame

/-- The command that is applied. -/
def ScopeDeed.command? : ScopeDeed → Option ScopeCommand
  | input (.command c) => some c
  | _ => none

namespace Scope

variable (s : Scope)

/-- The scope after a deed. -/
def after (s : Scope) : ScopeDeed → Scope
  | .input x => s.receive x
  | .frame => (s.step []).2.2

/-- The scope after deeds in order. -/
def afterAll (s : Scope) (deeds : List ScopeDeed) : Scope := deeds.foldl after s

/-- Whether the stream that a deed names is there, if it is a command for one. -/
def knows (s : Scope) : ScopeDeed → Bool
  | .input (.command (.change stream _)) => (s.view? stream).isSome
  | _ => true

theorem afterAll_append (deeds more : List ScopeDeed) : s.afterAll (deeds ++ more) = (s.afterAll deeds).afterAll more :=
  List.foldl_append

/-- Streams do not come or go. -/
theorem isSome_view?_after (d : ScopeDeed) (name : String) :
    ((s.after d).view? name).isSome = (s.view? name).isSome := by
  cases d with
  | input x =>
    rw [after, view?_receive]
    exact Option.isSome_map
  | frame =>
    rw [after, (s.step_eq_turn []).1, view?_turn]
    exact Option.isSome_map

theorem knows_after (d : ScopeDeed) : (s.after d).knows = s.knows := by
  funext later
  match later with
  | .input (.command (.change stream _)) => exact s.isSome_view?_after d stream
  | .input (.command .quit) | .input (.write _ _) | .frame => rfl

/-- A command for a stream that is not there changes nothing. -/
theorem after_of_knows_eq_false {d : ScopeDeed} (unknown : s.knows d = false) : s.after d = s := by
  match d with
  | .input (.command (.change stream c)) =>
    have absent : ∀ v ∈ s.views, v.name ≠ stream := by
      simpa [knows, view?, List.find?_eq_none] using unknown
    show (s.applyLogged (.change stream c)).2 = s
    rw [applyLogged, s.apply_unknown absent]
  | .input (.command .quit) | .input (.write _ _) | .frame => cases unknown

/-- Without the commands for streams that are not there, everything else comes to the same. -/
theorem afterAll_filter_knows (deeds : List ScopeDeed) : s.afterAll (deeds.filter s.knows) = s.afterAll deeds := by
  induction deeds generalizing s with
  | nil => rfl
  | cons d rest ih =>
    have rest' := ih (s.after d)
    rw [knows_after] at rest'
    show s.afterAll ((d :: rest).filter s.knows) = (s.after d).afterAll rest
    rw [← rest', List.filter_cons]
    split
    · rfl
    · rename_i unknown
      rw [s.after_of_knows_eq_false (by simpa using unknown)]

end Scope

/-! ## Runs -/

/-- A command that the reader comes to, and whether the channel is full then. -/
structure Arrival where
  command : ScopeCommand
  full : Bool

namespace CommandTraffic

/-- The command that arrives in an event. -/
def arrival? (t : CommandTraffic) : TrafficEvent → Option Arrival
  | .read => t.reader.lines.head?.bind fun line => (CommandLine.commandIn? line).map (⟨·, t.channel.isFull⟩)
  | _ => none

theorem arrival?_read_of_cons {t : CommandTraffic} {line : List UInt8} {rest : List (List UInt8)}
    (first : t.reader.lines = line :: rest) :
    t.arrival? .read = (CommandLine.commandIn? line).map (⟨·, t.channel.isFull⟩) := by
  rw [arrival?, first]
  rfl

/-- What is done to the scope in an event. -/
def deed? (t : CommandTraffic) : TrafficEvent → Option ScopeDeed
  | .read => none
  | .proceed =>
    match t.phase, t.batch with
    | .applying, [] => some .frame
    | .applying, c :: _ => some (.input (.command c))
    | _, _ => none
  | .write stream w => some (.input (.write stream w))

/-- What everybody but the reader does: commands move from the channel into the batch and from there to the scope, in
their order. -/
structure HandsOn (t u : CommandTraffic) (deed : Option ScopeDeed) : Prop where
  reader : u.reader = t.reader
  closed : u.channel.closed = t.channel.closed
  capacity : u.channel.capacity = t.channel.capacity
  fewer : u.channel.pending.length ≤ t.channel.pending.length
  commands : deed.toList.filterMap ScopeDeed.command? ++ u.batch ++ u.channel.pending = t.batch ++ t.channel.pending
  scope : u.scope = t.scope.afterAll deed.toList
  idle : (t.phase = .between → t.batch = []) → u.phase = .between → u.batch = []

theorem handsOn_proceed (t : CommandTraffic) : t.HandsOn t.proceed (t.deed? .proceed) := by
  obtain ⟨reader, ⟨capacity, pending, closed⟩, phase, batch, s, limit⟩ := t
  cases phase with
  | between =>
    by_cases finished : s.isOver false limit
    · simp only [proceed, deed?, finished, ↓reduceIte]
      exact ⟨rfl, rfl, rfl, Nat.le_refl _, rfl, rfl, id⟩
    · simp only [proceed, deed?, finished, Bool.false_eq_true, ↓reduceIte]
      exact ⟨rfl, rfl, rfl, Nat.le_refl _, rfl, rfl, fun _ => nofun⟩
  | taking =>
    cases pending with
    | nil => exact ⟨rfl, rfl, rfl, Nat.le_refl _, rfl, rfl, fun _ => nofun⟩
    | cons c rest => exact ⟨rfl, rfl, rfl, Nat.le_succ _, List.append_assoc batch [c] rest, rfl, fun _ => nofun⟩
  | applying =>
    cases batch with
    | nil => exact ⟨rfl, rfl, rfl, Nat.le_refl _, rfl, rfl, fun _ _ => rfl⟩
    | cons c rest => exact ⟨rfl, rfl, rfl, Nat.le_refl _, rfl, rfl, fun _ => nofun⟩

theorem handsOn_write (t : CommandTraffic) (stream : String) (w : StreamWrite) :
    t.HandsOn (t.next (.write stream w)) (t.deed? (.write stream w)) :=
  ⟨rfl, rfl, rfl, Nat.le_refl _, rfl, rfl, id⟩

end CommandTraffic

/-- A run: the commands that arrived, what was done to the scope, and how things stand. -/
structure CommandHistory where
  arrivals : List Arrival
  deeds : List ScopeDeed
  traffic : CommandTraffic

namespace CommandHistory

/-- The run that has not begun: all lines are unread, and the channel is empty. -/
def ofBytes (bytes : List UInt8) (capacity : Nat) (s : Scope) (limit : Option Nat) : CommandHistory :=
  ⟨[], [], .ofBytes bytes, .ofCapacity capacity, .between, [], s, limit⟩

/-- The run with one more event. -/
def record (h : CommandHistory) (e : TrafficEvent) : CommandHistory :=
  ⟨h.arrivals ++ (h.traffic.arrival? e).toList, h.deeds ++ (h.traffic.deed? e).toList, h.traffic.next e⟩

/-- The run through events in order. -/
def recordAll (h : CommandHistory) (events : List TrafficEvent) : CommandHistory := events.foldl record h

/-- The commands that have been applied. -/
def applied (h : CommandHistory) : List ScopeCommand := h.deeds.filterMap ScopeDeed.command?

/-- The commands that arrived while there was room. -/
def admitted (h : CommandHistory) : List ScopeCommand := (h.arrivals.filter (!·.full)).map Arrival.command

/-- The commands that went into the channel: those that have been applied, those that the presentation loop has taken,
and those that wait. -/
def forwarded (h : CommandHistory) : List ScopeCommand := h.applied ++ h.traffic.batch ++ h.traffic.channel.pending

end CommandHistory

/-- Whether an event is a line read. -/
def TrafficEvent.reads : TrafficEvent → Bool
  | read => true
  | _ => false

/-- How a run stands that began with an empty channel of a capacity beside a scope `s`, after so many of the lines. A
reader gets no further than the first line that is no text. -/
structure CommandHistory.Faithful (h : CommandHistory) (s : Scope) (capacity : Nat) (lines : List (List UInt8))
    (reads : Nat) : Prop where
  going : h.traffic.channel.closed = false
  capacity_eq : h.traffic.channel.capacity = capacity
  bounded : h.traffic.channel.pending.length ≤ capacity
  unread : h.traffic.reader.lines <:+ lines
  fewer : h.traffic.reader.lines.length ≤ lines.length - reads
  readable : h.traffic.reader.lines.takeWhile CommandLine.isText = (lines.takeWhile CommandLine.isText).drop reads
  arrived : h.arrivals.map Arrival.command
    = ((lines.takeWhile CommandLine.isText).take reads).filterMap CommandLine.commandIn?
  kept : h.forwarded = h.admitted
  counted : h.traffic.reader.forwarded = h.admitted.length
  shown : h.traffic.scope = s.afterAll h.deeds
  idle : h.traffic.phase = .between → h.traffic.batch = []

namespace CommandHistory

variable {h : CommandHistory} {s : Scope} {capacity reads : Nat} {lines : List (List UInt8)}

theorem faithful_ofBytes (bytes : List UInt8) (capacity : Nat) (s : Scope) (limit : Option Nat) :
    (ofBytes bytes capacity s limit).Faithful s capacity (Text.lines bytes) 0 where
  going := rfl
  capacity_eq := rfl
  bounded := Nat.zero_le _
  unread := List.suffix_rfl
  fewer := Nat.le_refl _
  readable := rfl
  arrived := rfl
  kept := rfl
  counted := rfl
  shown := rfl
  idle := fun _ => rfl

/-- Commands that are handed on stay in order. -/
theorem Faithful.handOn (f : h.Faithful s capacity lines reads) {u : CommandTraffic} {deed : Option ScopeDeed}
    (step : h.traffic.HandsOn u deed) :
    (CommandHistory.mk h.arrivals (h.deeds ++ deed.toList) u).Faithful s capacity lines reads where
  going := step.closed.trans f.going
  capacity_eq := step.capacity.trans f.capacity_eq
  bounded := Nat.le_trans step.fewer f.bounded
  unread := step.reader ▸ f.unread
  fewer := step.reader ▸ f.fewer
  readable := step.reader ▸ f.readable
  arrived := f.arrived
  kept := by
    refine Eq.trans ?_ f.kept
    rw [forwarded, forwarded, applied, applied, List.filterMap_append, List.append_assoc, List.append_assoc,
      ← List.append_assoc _ u.batch, step.commands, List.append_assoc]
  counted := (congrArg CommandReader.forwarded step.reader).trans f.counted
  shown := by rw [step.scope, f.shown, Scope.afterAll_append]
  idle := step.idle f.idle

/-- A line of text is the next one. -/
theorem Faithful.next (f : h.Faithful s capacity lines reads) {line : List UInt8} {rest : List (List UInt8)}
    (first : h.traffic.reader.lines = line :: rest) (text : CommandLine.isText line = true) :
    rest <:+ lines ∧ rest.length ≤ lines.length - (reads + 1)
      ∧ rest.takeWhile CommandLine.isText = (lines.takeWhile CommandLine.isText).drop (reads + 1)
      ∧ h.arrivals.map Arrival.command ++ (CommandLine.commandIn? line).toList
        = ((lines.takeWhile CommandLine.isText).take (reads + 1)).filterMap CommandLine.commandIn? := by
  have unread := f.unread
  have fewer := f.fewer
  have readable := f.readable
  rw [first] at unread fewer readable
  rw [List.takeWhile_cons_of_pos text] at readable
  refine ⟨(List.suffix_cons line rest).trans unread, Nat.le_sub_one_of_lt fewer, ?_, ?_⟩
  · rw [← List.drop_drop, ← readable, List.drop_one, List.tail_cons]
  · rw [List.take_add, ← readable, List.filterMap_append, ← f.arrived, List.take_succ_cons, List.take_zero]
    cases spelled : CommandLine.commandIn? line <;> simp [spelled]

/-- Behind the last line of text nothing arrives. -/
theorem Faithful.last (f : h.Faithful s capacity lines reads)
    (noText : h.traffic.reader.lines.takeWhile CommandLine.isText = []) :
    [] = (lines.takeWhile CommandLine.isText).drop (reads + 1)
      ∧ h.arrivals.map Arrival.command
        = ((lines.takeWhile CommandLine.isText).take (reads + 1)).filterMap CommandLine.commandIn? := by
  have readable := f.readable
  rw [noText] at readable
  have short : (lines.takeWhile CommandLine.isText).length ≤ reads := List.drop_eq_nil_iff.1 readable.symm
  refine ⟨(List.drop_eq_nil_iff.2 (Nat.le_succ_of_le short)).symm, ?_⟩
  rw [f.arrived, List.take_of_length_le short, List.take_of_length_le (Nat.le_succ_of_le short)]

/-- A line read keeps the commands in order. -/
theorem Faithful.read (f : h.Faithful s capacity lines reads) {r : CommandReader} {channel : CommandChannel}
    (read : LineRead h.traffic.reader h.traffic.channel r channel) :
    (CommandHistory.mk (h.arrivals ++ (h.traffic.arrival? .read).toList) h.deeds
      { h.traffic with reader := r, channel }).Faithful s capacity lines (reads + 1) := by
  -- In the first two cases no text is left, so that one more turn of the reader makes no difference.
  cases read with
  | ended noLine =>
    have arrival : h.traffic.arrival? .read = none := by
      rw [CommandTraffic.arrival?, noLine]
      rfl
    obtain ⟨readable, arrived⟩ := f.last (by rw [noLine]; rfl)
    rw [arrival, Option.toList_none, List.append_nil]
    exact { f with
      fewer := by simp [noLine]
      readable := by rw [noLine]; exact readable
      arrived }
  | unreadable line rest first notText =>
    have arrival : h.traffic.arrival? .read = none := by
      rw [CommandTraffic.arrival?_read_of_cons first, CommandLine.commandIn?_of_isText_eq_false notText]
      rfl
    obtain ⟨readable, arrived⟩ := f.last (by simp [first, notText])
    rw [arrival, Option.toList_none, List.append_nil]
    exact { f with
      unread := List.nil_suffix
      fewer := Nat.zero_le _
      readable
      arrived }
  | skipped line rest first text nothing =>
    obtain ⟨unread, fewer, readable, arrived⟩ := f.next first text
    rw [nothing, Option.toList_none, List.append_nil] at arrived
    rw [CommandTraffic.arrival?_read_of_cons first, nothing, Option.map_none, Option.toList_none, List.append_nil]
    exact { f with unread, fewer, readable, arrived }
  | refused line rest c first text spelled full =>
    obtain ⟨unread, fewer, readable, arrived⟩ := f.next first text
    rw [spelled, Option.toList_some] at arrived
    rw [CommandTraffic.arrival?_read_of_cons first, spelled, Option.map_some, Option.toList_some, full]
    have admitted_eq : admitted ⟨h.arrivals ++ [⟨c, true⟩], h.deeds, h.traffic⟩ = h.admitted := by simp [admitted]
    exact { f with
      unread
      fewer
      readable
      arrived := by rw [List.map_append]; exact arrived
      kept := f.kept.trans admitted_eq.symm
      counted := f.counted.trans (congrArg List.length admitted_eq.symm) }
  | sent line rest c first text spelled room =>
    obtain ⟨unread, fewer, readable, arrived⟩ := f.next first text
    rw [spelled, Option.toList_some] at arrived
    rw [CommandTraffic.arrival?_read_of_cons first, spelled, Option.map_some, Option.toList_some, room]
    have admitted_eq : admitted ⟨h.arrivals ++ [⟨c, false⟩], h.deeds, h.traffic⟩ = h.admitted ++ [c] := by
      simp [admitted]
    have fits : h.traffic.channel.pending.length < capacity := by
      rw [← f.capacity_eq]
      simpa [CommandChannel.isFull] using room
    exact {
      going := f.going
      capacity_eq := f.capacity_eq
      bounded := by
        rw [CommandChannel.send, List.length_append]
        exact fits
      unread
      fewer
      readable
      arrived := by rw [List.map_append]; exact arrived
      kept := by
        refine Eq.trans ?_ admitted_eq.symm
        rw [← f.kept, forwarded, forwarded, List.append_assoc _ _ [c]]
        rfl
      counted := by
        refine Eq.trans ?_ (congrArg List.length admitted_eq.symm)
        rw [List.length_append, ← f.counted]
        rfl
      shown := f.shown
      idle := f.idle }

/-- Every event keeps the commands in order. -/
theorem Faithful.record (f : h.Faithful s capacity lines reads) (e : TrafficEvent) :
    (h.record e).Faithful s capacity lines (reads + if e.reads then 1 else 0) := by
  cases e with
  | read =>
    have step := f.read (h.traffic.reader.lineRead h.traffic.channel f.going)
    rwa [← List.append_nil h.deeds] at step
  | proceed =>
    have step := f.handOn h.traffic.handsOn_proceed
    rwa [← List.append_nil h.arrivals] at step
  | write stream w =>
    have step := f.handOn (h.traffic.handsOn_write stream w)
    rwa [← List.append_nil h.arrivals] at step

/-- Every run keeps the commands in order. -/
theorem Faithful.recordAll (f : h.Faithful s capacity lines reads) (events : List TrafficEvent) :
    (h.recordAll events).Faithful s capacity lines (reads + events.countP TrafficEvent.reads) := by
  induction events generalizing h reads with
  | nil => exact f
  | cons e rest ih =>
    have more := ih (f.record e)
    rwa [Nat.add_assoc, Nat.add_comm (ite _ _ _), ← List.countP_cons] at more

/-- So every run from the beginning does. -/
theorem faithful_recordAll (bytes : List UInt8) (capacity : Nat) (s : Scope) (limit : Option Nat)
    (events : List TrafficEvent) : ((ofBytes bytes capacity s limit).recordAll events).Faithful s capacity
      (Text.lines bytes) (events.countP TrafficEvent.reads) := by
  have f := (faithful_ofBytes bytes capacity s limit).recordAll events
  rwa [Nat.zero_add] at f

end CommandHistory

/-! ## Commands of a text -/

/-- What there is to say of a run after so many of the lines of a text. -/
structure CommandHistory.InOrder (h : CommandHistory) (s : Scope) (capacity : Nat) (lines : List (List Char))
    (reads : Nat) : Prop where
  /-- One line after the other is read, whatever is in it. -/
  unread : h.traffic.reader.lines = (lines.drop reads).map Text.encode
  /-- The commands that arrive are those that the lines spell. -/
  arrived : h.arrivals.map Arrival.command = (lines.take reads).filterMap ScopeCommand.ofLine?
  /-- The commands applied, then those that the loop has taken, and then those in the channel are the ones that did not
  find it full, in order and once each. -/
  kept : h.applied ++ h.traffic.batch ++ h.traffic.channel.pending
    = (h.arrivals.filter (!·.full)).map Arrival.command
  /-- Between two frames the loop has no commands in hand. -/
  idle : h.traffic.phase = .between → h.traffic.batch = []
  /-- The reader counts what it has sent. -/
  counted : h.traffic.reader.forwarded = (h.applied ++ h.traffic.batch ++ h.traffic.channel.pending).length
  capacity_eq : h.traffic.channel.capacity = capacity
  bounded : h.traffic.channel.pending.length ≤ capacity
  /-- The scope is as the applied commands leave it, and what else was done to it in between. -/
  shown : h.traffic.scope = s.afterAll h.deeds
  /-- It would be the same without the commands for unknown streams. -/
  unknown : h.traffic.scope = s.afterAll (h.deeds.filter s.knows)

/-- **Commands come in order.** However the reader of a text and the presentation loop take turns, all commands in the
lines read are applied or on their way, but for those that found the channel full. -/
theorem commands_in_order (text : String) (capacity : Nat) (s : Scope) (limit : Option Nat)
    (events : List TrafficEvent) :
    ((CommandHistory.ofBytes text.toUTF8.data.toList capacity s limit).recordAll events).InOrder s capacity
      (Text.linesOf text.toList) (events.countP TrafficEvent.reads) := by
  have f := CommandHistory.faithful_recordAll text.toUTF8.data.toList capacity s limit events
  generalize (CommandHistory.ofBytes text.toUTF8.data.toList capacity s limit).recordAll events = h at f
  rw [Text.toUTF8_eq, Text.lines_encode] at f
  -- All lines are text, those that are left included: the reader never ends early.
  have isText : ∀ line ∈ (Text.linesOf text.toList).map Text.encode, CommandLine.isText line = true :=
    List.forall_mem_map.2 fun line _ => CommandLine.isText_encode line
  have all := List.takeWhile_eq_self_iff.2 isText
  have ahead := List.takeWhile_eq_self_iff.2 fun line mem => isText line (f.unread.mem mem)
  have spelled : CommandLine.commandIn? ∘ Text.encode = ScopeCommand.ofLine? :=
    funext CommandLine.commandIn?_encode
  exact {
    unread := by rw [← ahead, f.readable, all, List.map_drop]
    arrived := by rw [f.arrived, all, ← List.map_take, List.filterMap_map, spelled]
    kept := f.kept
    idle := f.idle
    counted := f.counted.trans (congrArg List.length f.kept.symm)
    capacity_eq := f.capacity_eq
    bounded := f.bounded
    shown := f.shown
    unknown := by rw [s.afterAll_filter_knows, f.shown] }

end Panadapter
