import Panadapter.CommandLine.Grammar
import Panadapter.CommandLine.Value
import Panadapter.Log
import Panadapter.Scope.Document
import Panadapter.ToneProgram

/-! # The command line of the scope

The scope is run, or its usual configuration is printed. What is given on the command line goes before what the
configuration says.

* `ScopeArguments.parse`: the arguments.
* `RunArguments.buildConfig`: the configuration to run, valid with all that was asked for.
-/

namespace Panadapter

open CommandLine (Grammar Opt Progress Usage)

/-- The arguments of a run. -/
structure RunArguments where
  config : Option String := none
  simulate : Bool := false
  simulatedRate : Float := 1000000
  enable : List String := []
  points : Option Nat := none
  palette : Option Palette := none
  fps : Option Float := none
  frames : Option Nat := none
  logEvery : Nat := 60
  noControl : Bool := false
  tone : Bool := false
  toneSettings : ToneSettings := {}
  deriving DecidableEq, Repr

/-- What the scope is asked to do, and whether it is to be wordy about it. -/
inductive ScopeArguments where
  | run (verbose : Bool) (args : RunArguments)
  | config (verbose : Bool)
  deriving DecidableEq, Repr

/-! ## Arguments -/

namespace ScopeArguments

/-- A record beside the wordiness, which may be asked for at every level. -/
abbrev Verbose (α : Type) := Bool × α

/-- The flag that asks for wordiness. -/
def verboseFlag {α : Type} : Opt (Verbose α) := .flag "verbose" (some 'v') fun a => (true, a.2)

/-- An option of the command below. -/
def option {α β : Type} (long : String) (short : Option Char) (read : String → Option β) (put : β → α → α) :
    Opt (Verbose α) :=
  .value long short read fun v a => (a.1, put v a.2)

/-- A flag of the command below. -/
def flag {α : Type} (long : String) (set : α → α) : Opt (Verbose α) := .flag long none fun a => (a.1, set a.2)

/-- An option for the tone program. -/
def toneOption {β : Type} (long : String) (read : String → Option β) (put : β → ToneSettings → ToneSettings) :
    Opt (Verbose RunArguments) :=
  option long none read fun v a => { a with toneSettings := put v a.toneSettings }

/-- What stands before the command. -/
def grammar : Grammar (Verbose Unit) := ⟨[verboseFlag], [], ["run", "config"], []⟩

/-- What belongs to a run. -/
def runGrammar : Grammar (Verbose RunArguments) where
  options :=
    [option "config" none CommandLine.readPath fun v a => { a with config := some v },
     flag "simulate" fun a => { a with simulate := true },
     option "sim-rate" none CommandLine.readFloat fun v a => { a with simulatedRate := v },
     .repeated (option "enable" (some 'e') CommandLine.readText fun v a => { a with enable := a.enable ++ [v] }),
     option "fft-len" (some 'n') CommandLine.readNat fun v a => { a with points := some v },
     option "palette" none (fun text => (Palette.ofName? text).toOption) fun v a => { a with palette := some v },
     option "fps" none CommandLine.readFloat fun v a => { a with fps := some v },
     option "frames" none CommandLine.readNat fun v a => { a with frames := some v },
     option "log-every" none CommandLine.readNat fun v a => { a with logEvery := v },
     flag "no-control" fun a => { a with noControl := true },
     flag "tone" fun a => { a with tone := true },
     toneOption "tone-program" CommandLine.readText fun v s => { s with program := v },
     toneOption "tone-device" CommandLine.readWord fun v s => { s with device := some v },
     toneOption "tone-freq" CommandLine.readInt fun v s => { s with frequency := v },
     toneOption "tone-rate" CommandLine.readInt fun v s => { s with sampleRate := v },
     toneOption "tone-amplitude" CommandLine.readFloat fun v s => { s with amplitude := v },
     flag "tone-zero-copy" fun a => { a with toneSettings := { a.toneSettings with zeroCopy := true } },
     verboseFlag]
  positionals := []
  commands := []
  exclusive := []

/-- What belongs to the printing of the configuration. -/
def configGrammar : Grammar (Verbose Unit) := ⟨[verboseFlag], [], [], []⟩

/-- All arguments. There has to be a command. -/
def parse (args : List String) : Except Usage ScopeArguments := do
  match ← grammar.scan (.start (false, ())) args with
  | (_, none) => throw .wrong
  | (p, some (name, rest)) =>
    if name = "run" then
      let (inner, a) ← runGrammar.parse (false, {}) rest
      let (outer, _) ← grammar.finish p
      return run (outer || inner) a
    else
      let (inner, _) ← configGrammar.parse (false, ()) rest
      let (outer, _) ← grammar.finish p
      return config (outer || inner)

/-- The level from which lines are logged. -/
def logLevel : ScopeArguments → LogLevel
  | run verbose _ => if verbose then .info else .warn
  | config verbose => if verbose then .info else .warn

end ScopeArguments

/-! ## The configuration of a run -/

/-- Why there is no configuration to run. -/
inductive SetupError where
  | load (cause : LoadError)
  | length (cause : SpectrumError)
  | unknownStream (name : String)
  | invalid (cause : ConfigError)
  deriving DecidableEq, Repr

/-- The wording of a setup error. -/
def SetupError.message : SetupError → String
  | load cause => cause.message
  | length cause => cause.message
  | unknownStream name => "unknown stream '" ++ name ++ "'"
  | invalid cause => cause.message

namespace ScopeConfig

/-- The first stream of a name switched on, if there is one. -/
def enableFirst (name : String) : List StreamConfig → Option (List StreamConfig)
  | [] => none
  | s :: rest =>
    if s.name = name then some ({ s with enabled := true } :: rest) else (enableFirst name rest).map (s :: ·)

/-- The streams of a name switched on: `all` means every stream. -/
def enable (name : String) (c : ScopeConfig) : Except SetupError ScopeConfig :=
  if name = "all" then .ok (c.mapStreams fun s => { s with enabled := true })
  else
    match enableFirst name c.streams with
    | some streams => .ok { c with streams }
    | none => .error (.unknownStream name)

end ScopeConfig

namespace RunArguments

/-- The configuration that is started from. -/
def startingConfig (a : RunArguments) (storage : Storage) : Except SetupError ScopeConfig :=
  match a.config with
  | some path => (ScopeConfig.load storage path).mapError .load
  | none => .ok .usual

/-- The length that was asked for, if there is one. -/
def length? (a : RunArguments) : Except SetupError (Option FftLength) :=
  match a.points with
  | some n => ((FftLength.ofPoints? n).map some).mapError .length
  | none => .ok none

/-- The configuration to run. What is wrong first is reported: the file, the length, a stream to be switched on, and what
all of it makes together. -/
def buildConfig (a : RunArguments) (storage : Storage) : Except SetupError ScopeConfig := do
  let c ← a.startingConfig storage
  let c := if a.simulate then c.simulate a.simulatedRate else c
  let c := a.fps.elim c fun fps => { c with fps }
  let c := (← a.length?).elim c fun length => c.mapStreams fun s => { s with fftLength := length }
  let c := a.palette.elim c fun palette => c.mapStreams fun s => { s with palette }
  let c ← a.enable.foldlM (fun c name => c.enable name) c
  c.validate.mapError .invalid
  return c

end RunArguments

end Panadapter
