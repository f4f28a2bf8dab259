import Panadapter.Fir.Tool
import Panadapter.Receiver
import Panadapter.Scope.Arguments
import Panadapter.Scope.CommandInput
import Panadapter.Scope.Status

/-! # The programs

The scope and, under the name `fir-util`, the filter tool. What they do is told elsewhere; here files are read, lines are
printed, and the clock is looked at.
-/

namespace Panadapter.Main

/-- Lines of the log that are serious enough, on the error output. -/
def report (level : LogLevel) (log : Log) : IO Unit := do
  for l in log.upTo level do
    IO.eprintln l.shown

/-- The storage with the file at a path, if it can be read. -/
def addFile (s : Storage) (path : String) : IO Storage := do
  match ← (IO.FS.readBinFile path).toBaseIO with
  | .ok bytes => return s.write path { bytes := bytes.toList }
  | .error _ => return s

/-- The files at paths. -/
def readFiles (paths : List String) : IO Storage := do
  let home := Storage.names (← IO.currentDir).toString
  paths.foldlM addFile { Storage.empty with home := home }

/-- A program that did not run. -/
def usage (name : String) (u : CommandLine.Usage) : IO UInt32 := do
  IO.eprintln ("usage: " ++ name ++ " [options] <command>")
  return u.exitCode.toUInt32

/-- A program that failed. -/
def failure (message : String) : IO UInt32 := do
  IO.eprintln ("error: " ++ message)
  return 1

/-- The filter tool. -/
def filterTool (args : List String) : IO UInt32 := do
  match FirTool.parse args with
  | .error u => usage "fir-util" u
  | .ok t =>
    report t.logLevel (.info ("fir-util: device " ++ toString t.board))
    let coefficientFile := match t.command with
      | .coefficients path => [path]
      | .configuration _ => []
    let storage ← readFiles (t.registerList.toList ++ coefficientFile)
    match t.run storage with
    | .ok lines =>
      for l in lines do
        IO.println l
      return 0
    | .error e => failure e.message

/-- Commands from the standard input into a channel, until the input ends. -/
partial def feedCommands (level : LogLevel) (channel : IO.Ref CommandChannel) : IO Unit := do
  let line ← (← IO.getStdin).getLine
  if line.isEmpty then return
  let reader := CommandReader.ofBytes line.toUTF8.toList
  let log ← channel.modifyGet fun c =>
    let (_, c, log) := reader.readAll false c
    (log, c)
  report level log
  feedCommands level channel

/-- The steps that every worker makes in a round. -/
def stepsInRound : Nat := 64

/-- Rounds until the run is over, each as long as a frame. -/
partial def showFrames (level : LogLevel) (storage : Storage) (limit : Option Nat) (every : Nat)
    (channel : IO.Ref CommandChannel) (r : Receiver) : IO Receiver := do
  let now ← IO.monoNanosNow
  let pending ← channel.modifyGet CommandChannel.take
  let turns := (List.replicate stepsInRound (List.range r.acquisitions.length)).flatten
  match r.round storage limit ⟨now, turns, false, pending⟩ with
  | (none, log, r) =>
    report level log
    return r
  | (some frames, log, r) =>
    report level (log ++ statusLog every r.scope.frames frames)
    let spent := (← IO.monoNanosNow) - now
    let period := Pacer.nanoseconds (1 / r.scope.fps)
    IO.sleep (UInt32.ofNat ((period - spent) / 1000000))
    showFrames level storage limit every channel r

/-- The most commands that wait for a frame. -/
def channelCapacity : Nat := 64

/-- A run of the scope. -/
def runScope (level : LogLevel) (a : RunArguments) : IO UInt32 := do
  match a.buildConfig (← readFiles a.config.toList) with
  | .error e => failure e.message
  | .ok c =>
    let storage ← readFiles (c.streams.flatMap fun s =>
      match s.transport with
      | .capture f => [f.path]
      | _ => [])
    if a.tone then
      if let .error e := ToneProcess.start? storage a.toneSettings then return ← failure e.message
    match Receiver.ofConfig? c with
    | .error e => failure e.message
    | .ok (log, r) =>
      report level log
      let channel ← IO.mkRef (CommandChannel.ofCapacity channelCapacity)
      if !a.noControl then
        discard (IO.asTask (feedCommands level channel))
      let r ← showFrames level storage a.frames a.logEvery channel r
      let (log, _) := r.windUp storage (← IO.monoNanosNow)
      report level log
      return 0

/-- The scope. -/
def scopeProgram (args : List String) : IO UInt32 := do
  match ScopeArguments.parse args with
  | .error u => usage "panadapter" u
  | .ok (.config _) =>
    IO.println ScopeConfig.usual.toTree.pretty
    return 0
  | .ok (.run verbose a) => runScope (ScopeArguments.run verbose a).logLevel a

end Panadapter.Main

/-- The program that the first argument names. -/
def main (args : List String) : IO UInt32 :=
  match args with
  | "fir-util" :: rest => Panadapter.Main.filterTool rest
  | _ => Panadapter.Main.scopeProgram args
