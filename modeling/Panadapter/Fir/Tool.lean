import Panadapter.CommandLine.Grammar
import Panadapter.CommandLine.Value
import Panadapter.Fir.AddressText
import Panadapter.Fir.RegisterMap
import Panadapter.Fir.Stage

/-! # The filter tool

A command-line tool that loads coefficients into the FIR stage of a board or sets it up. In a dry run it prints the
writes in place of performing them.

* `FirTool.parse`: its arguments.
* `FirTool.run`: what it prints. Either all is printed or, on an error, nothing.
-/

namespace Panadapter

/-- What the tool is asked to do. -/
inductive FirCommand where
  | coefficients (path : String)
  | configuration (config : FirConfig)
  deriving DecidableEq, Repr

/-- The arguments of the tool. -/
structure FirTool where
  board : Nat := 0
  registerList : Option String := none
  firstRegister : Option Address := none
  dryRun : Bool := false
  verbose : Bool := false
  command : FirCommand := .coefficients ""
  deriving DecidableEq, Repr

namespace FirTool

open CommandLine (Grammar Opt Positional Usage)

/-! ## Arguments -/

/-- What stands before the command. -/
def grammar : Grammar FirTool where
  options :=
    [.value "device-num" (some 'c') CommandLine.readWord fun n t => { t with board := n },
     .value "csr-json" none CommandLine.readPath fun path t => { t with registerList := some path },
     .value "csr-base" none (fun text => (parseAddress text).toOption) fun a t => { t with firstRegister := some a },
     .flag "dry-run" none fun t => { t with dryRun := true },
     .flag "verbose" (some 'v') fun t => { t with verbose := true }]
  positionals := []
  commands := ["coefficients", "configuration"]
  exclusive := [("csr-json", "csr-base")]

/-- What belongs to the loading of coefficients: the path of their file. -/
def coefficientsGrammar : Grammar String where
  options := []
  positionals := [.value "FILENAME" CommandLine.readPath fun path _ => path]
  commands := []
  exclusive := []

/-- What belongs to the setting up of the stage. -/
def configurationGrammar : Grammar FirConfig where
  options :=
    [.needed (.value "decimation" (some 'd') CommandLine.readWord fun n c => { c with decimation := UInt32.ofNat n }),
     .needed (.value "operations" (some 'o') CommandLine.readWord fun n c => { c with operations := UInt32.ofNat n }),
     .flag "odd-operations" (some 'O') fun c => { c with oddOperations := true }]
  positionals := []
  commands := []
  exclusive := []

/-- The command of a name with its arguments. -/
def parseCommand (name : String) (args : List String) : Except Usage FirCommand :=
  if name = "coefficients" then (coefficientsGrammar.parse "" args).map .coefficients
  else (configurationGrammar.parse ⟨0, 0, false⟩ args).map .configuration

/-- All arguments. There has to be a command. -/
def parse (args : List String) : Except Usage FirTool := do
  match ← grammar.scan (.start {}) args with
  | (_, none) => throw .wrong
  | (p, some (name, rest)) =>
    let command ← parseCommand name rest
    return { ← grammar.finish p with command }

/-- The level from which lines are logged. -/
def logLevel (t : FirTool) : LogLevel := if t.verbose then .info else .warn

/-! ## Work -/

/-- Where the registers are: told by a register list or by the first address. Only a dry run needs neither. -/
def registerMap (t : FirTool) (s : Storage) : Except DeviceError RegisterMap :=
  match t.registerList, t.firstRegister with
  | some path, _ => RegisterMap.load? s path
  | none, some base => .ok (.ofBase base)
  | none, none =>
    if t.dryRun then .ok (.ofBase 0)
    else .error (.invalidConfig "FIR register addresses unknown: pass --csr-json or --csr-base")

/-- The coefficients that the command needs. -/
def coefficients (t : FirTool) (s : Storage) : Except DeviceError (List UInt32) :=
  match t.command with
  | .coefficients path => loadCoefficients s path
  | .configuration _ => .ok []

/-- The command performed on a device, with the line that reports it. -/
def perform {ρ : Type} (t : FirTool) (words : List UInt32) (m : RegisterMap) (d : RegisterDevice ρ) (state : ρ) :
    Except DeviceError String × ρ :=
  match t.command with
  | .coefficients path =>
    let (count, _, state) := upload d m words state
    (count.map fun n => toString n ++ " coefficients written from " ++ path, state)
  | .configuration c =>
    let (done, _, state) := c.apply d m state
    (done.map fun _ =>
      "decimation=" ++ toString c.decimation ++ " operations=" ++ toString c.operations ++ " odd_operations="
        ++ (if c.oddOperations then "true" else "false"),
      state)

/-- The device file of the board. -/
def devicePath (t : FirTool) : String := "/dev/litepcie" ++ toString t.board

/-- The lines that the tool prints. The registers are looked for first, then the coefficients, then the board, for which
there is no driver here. -/
def run (t : FirTool) (s : Storage) : Except DeviceError (List String) := do
  let m ← t.registerMap s
  let words ← t.coefficients s
  if t.dryRun then
    let (report, recording) := t.perform words m Recording.device .empty
    return (← report) :: recording.writes.map RegisterWrite.shown
  else throw (.unavailable t.devicePath "built without litepcie support")

end FirTool

end Panadapter
