import Panadapter.Json.Decode
import Panadapter.Palette.Document
import Panadapter.Scope.Config
import Panadapter.Spectrum.Document

/-! # Commands

What can be asked of the scope while it runs: changes of one stream, and to quit. A command is an object whose member
`cmd` says which one it is, with the stream and possibly a value beside it.

* `ScopeCommand.parse`: the command in a text.
-/

namespace Panadapter

open Json (RecordField Read)

/-- A change of a stream. -/
inductive StreamCommand where
  | enable
  | disable
  | setFftLength (length : FftLength)
  | setPalette (palette : Palette)
  | setMode (mode : DisplayMode)
  | setWaterfall (enabled : Bool)
  | setCadence (every : Nat)
  | clearWaterfall
  deriving DecidableEq, Repr

/-- A command to the scope: a change of the stream of a name, or to quit. -/
inductive ScopeCommand where
  | change (stream : String) (command : StreamCommand)
  | quit
  deriving DecidableEq, Repr

/-- The name of a change in documents. -/
def StreamCommand.name : StreamCommand → String
  | enable => "enable"
  | disable => "disable"
  | setFftLength _ => "set_fft_length"
  | setPalette _ => "set_palette"
  | setMode _ => "set_mode"
  | setWaterfall _ => "set_waterfall"
  | setCadence _ => "set_cadence"
  | clearWaterfall => "clear_waterfall"

namespace ScopeCommand

/-- The name of a command in documents. -/
def name : ScopeCommand → String
  | change _ command => command.name
  | quit => "quit"

/-- The stream that a command is for. -/
def stream? : ScopeCommand → Option String
  | change stream _ => some stream
  | quit => none

/-- The member that names the stream. -/
def streamField {α : Type} : RecordField (String × α) := .required "stream" Json.readString fun v c => (v, c.2)

/-- A change that needs no value. -/
def readPlain (command : StreamCommand) : Read ScopeCommand := fun p t =>
  (Json.readRecord [streamField] ("", ()) p t).map fun (stream, _) => change stream command

/-- A change to a value, which stands under a name. -/
def readValued {α : Type} (member : String) (read : Read α) (blank : α) (command : α → StreamCommand) :
    Read ScopeCommand := fun p t =>
  (Json.readRecord [streamField, .required member read fun v c => (c.1, v)] ("", blank) p t).map
    fun (stream, value) => change stream (command value)

/-- How what stands beside the tag is read, by the name in the tag. -/
def readers : List (String × Read ScopeCommand) :=
  [("enable", readPlain .enable),
   ("disable", readPlain .disable),
   ("set_fft_length", readValued "length" FftLength.read .usual .setFftLength),
   ("set_palette", readValued "palette" Palette.read .grayscale .setPalette),
   ("set_mode", readValued "mode" (Json.readChoice DisplayMode.named) .spectrum .setMode),
   ("set_waterfall", readValued "enabled" Json.readBool false .setWaterfall),
   ("set_cadence", readValued "every" (Json.readNat Json.largest32) 0 .setCadence),
   ("clear_waterfall", readPlain .clearWaterfall),
   ("quit", fun p t => (Json.readNothing p t).map fun _ => quit)]

/-- A command in a document. It is kept whole until its name is known. -/
def read : Read ScopeCommand := fun p t => do
  let (reader, rest) ← Json.splitTag "cmd" readers p t
  reader { p with held := true } rest

/-- The command in a text. -/
def parse (text : String) : Except Json.Fault ScopeCommand := Json.decode read text

/-- The wording of the fault of a text that is no command. -/
def badCommand (fault : Json.Fault) : String := "bad command: " ++ fault.message

end ScopeCommand

end Panadapter
