import Panadapter.Decimal.Fixed
import Panadapter.Storage.Program
import Panadapter.Transport.Tone

/-! # The tone program

A board can be fed with a test tone by a program that runs beside the scope.

* `ToneSettings.args`: the arguments of the program.
* `ToneProcess.start?`, `ToneProcess.stop`: its life.
-/

namespace Panadapter

/-- What is asked of the tone program. `device` is the number of the board. -/
structure ToneSettings where
  program : String := "m2sdr_tone"
  device : Option Nat := none
  frequency : Int := 1000
  sampleRate : Int := 30720000
  amplitude : Float := 1
  zeroCopy : Bool := false
  deriving DecidableEq, Repr

namespace ToneSettings

/-- The amplitude as the program wants it: between zero and one, with six places. -/
def amplitudeText (s : ToneSettings) : String := Decimal.fixed 6 (.ofFloat (Tone.clampUnit s.amplitude))

/-- The arguments of the program. -/
def args (s : ToneSettings) : List String :=
  s.device.elim [] (fun n => ["-c", toString n])
    ++ ["-f", toString s.frequency, "-s", toString s.sampleRate, "-a", s.amplitudeText]
    ++ (if s.zeroCopy then ["-z"] else [])

end ToneSettings

/-- A program that could not be started. -/
structure StartError where
  program : String
  cause : StorageError
  deriving DecidableEq, Repr

/-- The wording of the error. -/
def StartError.message (e : StartError) : String := "failed to start " ++ e.program ++ ": " ++ e.cause.message

/-- Whether a started program is still at work. -/
inductive ChildState where
  | running
  | exited
  deriving DecidableEq, Repr

/-- A tone program that was started, until it is stopped. -/
structure ToneProcess where
  program : String
  child : Option ChildState
  deriving DecidableEq, Repr

namespace ToneProcess

/-- The program of the settings at work. -/
def start? (storage : Storage) (s : ToneSettings) : Except StartError ToneProcess :=
  match storage.program s.program with
  | .ok () => .ok ⟨s.program, some .running⟩
  | .error cause => .error ⟨s.program, cause⟩

/-- Whether the process still has a number. -/
def hasId (p : ToneProcess) : Bool := p.child.isSome

/-- Whether the process is at work. -/
def isRunning (p : ToneProcess) : Bool := p.child == some .running

/-- The process after it has ended by itself. -/
def exit (p : ToneProcess) : ToneProcess := { p with child := p.child.map fun _ => .exited }

/-- The process ended and forgotten. -/
def stop (p : ToneProcess) : ToneProcess := { p with child := none }

end ToneProcess

end Panadapter
