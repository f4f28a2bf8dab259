import Panadapter.Log
import Panadapter.Scope.View

/-! # The scope

The scope shows frames. Before each one it applies the commands that are waiting and updates the view of every stream.

* `Scope.apply`, `Scope.applyAll`: commands.
* `Scope.step`: one frame.
* `Scope.run`: frames until something ends the run.
-/

namespace Panadapter

/-- The views of all streams, the frames in a second, the frames shown so far, and whether somebody asked to quit. -/
structure Scope where
  views : List StreamView
  fps : Float
  frames : Nat
  quit : Bool

/-- A command for a stream that is not there. -/
structure UnknownStream where
  name : String
  deriving DecidableEq, Repr

/-- The wording of the error. -/
def UnknownStream.message (e : UnknownStream) : String := "unknown stream '" ++ e.name ++ "'"

namespace Scope

/-- The rate at which frames can be shown that is next to a wanted one. -/
def frameRate (fps : Float) : Float :=
  if fps.isFinite && fps > 0 then (if fps < minFps then minFps else fps) else 60

/-- A scope that has shown nothing. -/
def ofViews (views : List StreamView) (fps : Float) : Scope := ⟨views, frameRate fps, 0, false⟩

/-- The first view of a name. -/
def view? (s : Scope) (name : String) : Option StreamView := s.views.find? fun v => v.name == name

/-! ## Commands -/

/-- The first view of a name changed, if there is one. -/
def changeFirst (name : String) (f : StreamView → StreamView) : List StreamView → Option (List StreamView)
  | [] => none
  | v :: rest => if v.name = name then some (f v :: rest) else (changeFirst name f rest).map (v :: ·)

/-- A command applied. -/
def apply (s : Scope) : ScopeCommand → Except UnknownStream Scope
  | .quit => .ok { s with quit := true }
  | .change name command =>
    match changeFirst name (·.apply command) s.views with
    | some views => .ok { s with views }
    | none => .error ⟨name⟩

/-- A command applied, or logged if its stream is unknown. -/
def applyLogged (s : Scope) (c : ScopeCommand) : Log × Scope :=
  match s.apply c with
  | .ok s => ([], s)
  | .error e => (.warn ("control: " ++ e.message), s)

/-- Commands applied one after the other. -/
def applyAll : List ScopeCommand → Scope → Log × Scope
  | [], s => ([], s)
  | c :: rest, s =>
    let (log, s) := s.applyLogged c
    let (more, s) := applyAll rest s
    (log ++ more, s)

/-! ## Frames -/

/-- A view at the next frame, with what is to be logged. -/
def updateLogged (v : StreamView) : Log × StreamView :=
  match v.update with
  | (.ok (), v) => ([], v)
  | (.error e, v) => (.warn (v.name ++ ": " ++ e.message), v)

/-- The next frame: waiting commands first, then every view. -/
def step (s : Scope) (pending : List ScopeCommand) : List Frame × Log × Scope :=
  let (log, s) := s.applyAll pending
  let updated := s.views.map updateLogged
  let views := updated.map Prod.snd
  (views.map StreamView.frame, log ++ (updated.map Prod.fst).flatten, { s with views, frames := s.frames + 1 })

/-- Whether the run is over: the program shuts down, somebody asked to quit, or all wanted frames have been shown. -/
def isOver (s : Scope) (shutdown : Bool) (limit : Option Nat) : Bool :=
  shutdown || s.quit || limit.any (· ≤ s.frames)

/-- What is logged at the end of a run. -/
def farewell (s : Scope) : Log := .info ("presentation loop done after " ++ toString s.frames ++ " frames")

/-- What the scope finds when it is about to show a frame: whether the program shuts down, and the commands that are
waiting. -/
structure Moment where
  shutdown : Bool
  pending : List ScopeCommand

/-- Frames with their numbers, as long as there are moments and the run is not over. -/
def run (limit : Option Nat) : List Moment → Scope → List (Nat × List Frame) × Log × Scope
  | [], s => ([], [], s)
  | m :: rest, s =>
    if s.isOver m.shutdown limit then ([], s.farewell, s)
    else
      let (frames, log, s) := s.step m.pending
      let (more, moreLog, last) := run limit rest s
      ((s.frames, frames) :: more, log ++ moreLog, last)

end Scope

end Panadapter
