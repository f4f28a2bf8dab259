import Panadapter.Log
import Panadapter.Scope.Command
import Panadapter.Text.Blank
import Panadapter.Text.Utf8

/-! # Commands from an input

Commands come line by line from an input and wait in a channel until the next frame. The channel holds so many commands
at most; those that find it full are dropped. Empty lines and lines that begin with `#` are passed over, and lines that
are no commands are reported.

* `CommandChannel`: the commands that wait.
* `CommandReader.step`: one line.
* `CommandReader.readAll`: all lines, with nobody taking commands from the channel meanwhile.
-/

namespace Panadapter

/-- Commands on their way to the scope. A channel is closed when nobody will take them any more. -/
structure CommandChannel where
  capacity : Nat
  pending : List ScopeCommand
  closed : Bool

namespace CommandChannel

/-- An empty channel. -/
def ofCapacity (capacity : Nat) : CommandChannel := ⟨capacity, [], false⟩

/-- Whether no more commands fit. -/
def isFull (c : CommandChannel) : Bool := c.capacity ≤ c.pending.length

/-- One more command at the end. -/
def send (c : CommandChannel) (command : ScopeCommand) : CommandChannel :=
  { c with pending := c.pending ++ [command] }

/-- All waiting commands, oldest first, and the channel without them. -/
def take (c : CommandChannel) : List ScopeCommand × CommandChannel := (c.pending, { c with pending := [] })

end CommandChannel

/-- What a line means. -/
inductive CommandLine where
  | unreadable
  | nothing
  | malformed (fault : Json.Fault)
  | command (c : ScopeCommand)
  deriving DecidableEq, Repr

/-- What the bytes of a line mean. -/
def CommandLine.ofBytes (bytes : List UInt8) : CommandLine :=
  match Text.ofBytes? bytes with
  | none => unreadable
  | some line =>
    match Text.trim line.toList with
    | [] => nothing
    | '#' :: _ => nothing
    | cs =>
      match ScopeCommand.parse (String.ofList cs) with
      | .ok c => command c
      | .error fault => malformed fault

/-- A reader: the lines that it has not read, and how many commands it has sent. -/
structure CommandReader where
  lines : List (List UInt8)
  forwarded : Nat

namespace CommandReader

/-- A reader at the beginning of an input. -/
def ofBytes (bytes : List UInt8) : CommandReader := ⟨Text.lines bytes, 0⟩

/-- A reader that has come to its end. -/
def finish (r : CommandReader) : CommandReader := { r with lines := [] }

/-- One line read and what it says done. The reader ends when the program shuts down, at a line that cannot be read, and
at a command for which the channel is closed. -/
def step (r : CommandReader) (shutdown : Bool) (channel : CommandChannel) : CommandReader × CommandChannel × Log :=
  match r.lines with
  | [] => (r, channel, [])
  | line :: lines =>
    let rest := { r with lines }
    if shutdown then (r.finish, channel, [])
    else
      match CommandLine.ofBytes line with
      | .unreadable => (r.finish, channel, .warn "control: read error: stream did not contain valid UTF-8")
      | .nothing => (rest, channel, [])
      | .malformed fault => (rest, channel, .warn ("control: " ++ ScopeCommand.badCommand fault))
      | .command c =>
        if channel.closed then (r.finish, channel, [])
        else if channel.isFull then (rest, channel, .warn ("control: command queue full, dropped " ++ c.name))
        else ({ rest with forwarded := r.forwarded + 1 }, channel.send c, [])

theorem length_lines_step (r : CommandReader) (shutdown : Bool) (channel : CommandChannel) (h : r.lines ≠ []) :
    (r.step shutdown channel).1.lines.length < r.lines.length := by
  unfold step
  split
  · contradiction
  · rename_i line lines same
    rw [same]
    split
    · simp [finish]
    · split
      · simp [finish]
      · simp
      · simp
      · split
        · simp [finish]
        · split <;> simp

/-- Lines read to the end. -/
def readAll (r : CommandReader) (shutdown : Bool) (channel : CommandChannel) : CommandReader × CommandChannel × Log :=
  if r.lines = [] then (r, channel, [])
  else
    let next := r.step shutdown channel
    let last := next.1.readAll shutdown next.2.1
    (last.1, last.2.1, next.2.2 ++ last.2.2)
termination_by r.lines.length
decreasing_by exact length_lines_step r shutdown channel ‹_›

end CommandReader

end Panadapter
