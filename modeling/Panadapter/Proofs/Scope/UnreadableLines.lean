import Panadapter.Proofs.Scope.CommandTraffic

/-!
# Lines that are no text

The reader goes on behind a line that is blank, a comment or no command. At a line that is no text it ends.

* A reader that has had a turn for every line is at its end, and has sent the commands of the lines before the first one
  that is no text (`CommandHistory.Faithful.complete`).
* These are all commands of the input exactly if none comes later (`all_forwarded_iff`).
-/

namespace Panadapter

namespace CommandHistory

variable {h : CommandHistory} {s : Scope} {capacity reads : Nat} {lines : List (List UInt8)}

/-- The reader at its end, if there was always room. -/
theorem Faithful.complete (f : h.Faithful s capacity lines reads) (turns : lines.length ≤ reads)
    (room : ∀ a ∈ h.arrivals, a.full = false) : h.traffic.reader.lines = []
      ∧ h.forwarded = (lines.takeWhile CommandLine.isText).filterMap CommandLine.commandIn? := by
  have noLine : h.traffic.reader.lines.length ≤ 0 := by
    rw [← Nat.sub_eq_zero_of_le turns]
    exact f.fewer
  have admitted : h.admitted = h.arrivals.map Arrival.command := by
    rw [CommandHistory.admitted, List.filter_eq_self.2 fun a mem => by simp [room a mem]]
  have text : (lines.takeWhile CommandLine.isText).length ≤ reads :=
    (List.takeWhile_prefix CommandLine.isText).length_le.trans turns
  refine ⟨List.length_eq_zero_iff.1 (Nat.le_zero.1 noLine), ?_⟩
  rw [f.kept, admitted, f.arrived, List.take_of_length_le text]

end CommandHistory

/-- The commands of some lines are those of the text that they begin with, exactly if the rest has none. -/
theorem CommandLine.filterMap_takeWhile_eq_iff (lines : List (List UInt8)) :
    (lines.takeWhile isText).filterMap commandIn? = lines.filterMap commandIn?
      ↔ ∀ line ∈ lines.dropWhile isText, commandIn? line = none := by
  have split : lines.filterMap commandIn?
      = (lines.takeWhile isText).filterMap commandIn? ++ (lines.dropWhile isText).filterMap commandIn? := by
    rw [← List.filterMap_append, List.takeWhile_append_dropWhile]
  rw [split, List.self_eq_append_right, List.filterMap_eq_nil_iff]

/-- **All commands are forwarded**, if there is always room in the channel, exactly if none stands behind a line that is
no text: the reader sends those before it. -/
theorem all_forwarded_iff (bytes : List UInt8) (capacity : Nat) (s : Scope) (limit : Option Nat)
    (events : List TrafficEvent) (turns : (Text.lines bytes).length ≤ events.countP TrafficEvent.reads)
    (room : ∀ a ∈ ((CommandHistory.ofBytes bytes capacity s limit).recordAll events).arrivals, a.full = false) :
    ((CommandHistory.ofBytes bytes capacity s limit).recordAll events).traffic.reader.lines = []
      ∧ ((CommandHistory.ofBytes bytes capacity s limit).recordAll events).forwarded
        = ((Text.lines bytes).takeWhile CommandLine.isText).filterMap CommandLine.commandIn?
      ∧ (((CommandHistory.ofBytes bytes capacity s limit).recordAll events).forwarded
          = (Text.lines bytes).filterMap CommandLine.commandIn?
        ↔ ∀ line ∈ (Text.lines bytes).dropWhile CommandLine.isText, CommandLine.commandIn? line = none) := by
  obtain ⟨ended, sent⟩ := (CommandHistory.faithful_recordAll bytes capacity s limit events).complete turns room
  refine ⟨ended, sent, ?_⟩
  rw [sent]
  exact CommandLine.filterMap_takeWhile_eq_iff (Text.lines bytes)

/-! ## A byte that is no text -/

/-- The line `{"cmd":"quit"}`. -/
def CommandLine.quitLine : List UInt8 := [123, 34, 99, 109, 100, 34, 58, 34, 113, 117, 105, 116, 34, 125]

theorem CommandLine.commandIn?_quitLine : commandIn? quitLine = some .quit := by decide +kernel

theorem CommandLine.isText_quitLine : isText quitLine = true := by decide +kernel

theorem CommandLine.isText_ff : isText [0xff] = false := by decide +kernel

/-- Behind the last command it does no harm. -/
theorem all_forwarded_quit_first :
    ((CommandHistory.ofBytes (CommandLine.quitLine ++ [10, 0xff]) 1 ScopeConfig.narrow.scope none).recordAll
      [.read, .read]).forwarded = (Text.lines (CommandLine.quitLine ++ [10, 0xff])).filterMap CommandLine.commandIn? := by
  have lines : Text.lines (CommandLine.quitLine ++ [10, 0xff]) = [CommandLine.quitLine, [0xff]] := by decide
  have behind := (all_forwarded_iff (CommandLine.quitLine ++ [10, 0xff]) 1 ScopeConfig.narrow.scope none
    [.read, .read] (by rw [lines]; decide) (by decide +kernel)).2.2
  refine behind.2 ?_
  rw [lines, List.dropWhile_cons_of_pos CommandLine.isText_quitLine]
  intro line mem
  obtain rfl := List.mem_singleton.1 ((List.dropWhile_suffix _).mem mem)
  exact CommandLine.commandIn?_of_isText_eq_false CommandLine.isText_ff

/-- So commands may be lost though there is room: the reader ends before it comes to them. -/
theorem not_forall_all_forwarded : ¬∀ (bytes : List UInt8) (capacity : Nat) (s : Scope) (limit : Option Nat)
    (events : List TrafficEvent), (Text.lines bytes).length ≤ events.countP TrafficEvent.reads →
    (∀ a ∈ ((CommandHistory.ofBytes bytes capacity s limit).recordAll events).arrivals, a.full = false) →
    ((CommandHistory.ofBytes bytes capacity s limit).recordAll events).forwarded
      = (Text.lines bytes).filterMap CommandLine.commandIn? := by
  intro all
  have lines : Text.lines ([0xff, 10] ++ CommandLine.quitLine) = [[0xff], CommandLine.quitLine] := by decide
  have turns : (Text.lines ([0xff, 10] ++ CommandLine.quitLine)).length
      ≤ [TrafficEvent.read, .read].countP TrafficEvent.reads := by rw [lines]; decide
  have room : ∀ a ∈ ((CommandHistory.ofBytes ([0xff, 10] ++ CommandLine.quitLine) 1 ScopeConfig.narrow.scope
      none).recordAll [.read, .read]).arrivals, a.full = false := by decide +kernel
  have f := CommandHistory.faithful_recordAll ([0xff, 10] ++ CommandLine.quitLine) 1 ScopeConfig.narrow.scope none
    [.read, .read]
  have sent := (f.complete turns room).2.symm.trans (all _ 1 ScopeConfig.narrow.scope none [.read, .read] turns room)
  have noneBehind := (CommandLine.filterMap_takeWhile_eq_iff _).1 sent
  rw [lines, List.dropWhile_cons_of_neg (by simp [CommandLine.isText_ff])] at noneBehind
  have lost := noneBehind CommandLine.quitLine (by simp)
  rw [CommandLine.commandIn?_quitLine] at lost
  cases lost

end Panadapter
