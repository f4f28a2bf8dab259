import Panadapter.Proofs.Scope.Histories

/-!
# Streams beside each other

A scope shows many streams. What comes to it is meant for one of them: a worker writes to its own stream, and a command
names the stream that it changes.

* In every turn a view does what it would do without the others (`Scope.view?_turn`).
* The turns of a scope are all that there is to its run (`Scope.run_eq_showAll`).
* Hence the frames of a stream follow from what is meant for it alone (`streams_separate`).
-/

namespace Panadapter

/-- What comes to a scope between updates: a worker writes to the stream of a name, or a command is taken up. -/
inductive ScopeInput where
  | write (stream : String) (w : StreamWrite)
  | command (c : ScopeCommand)

/-- What an input is to the stream of a name. -/
def ScopeInput.eventFor? (name : String) : ScopeInput → Option DisplayEvent
  | write stream w => if stream = name then some (.write w) else none
  | command (.change stream c) => if stream = name then some (.command c) else none
  | command .quit => none

namespace Scope

/-- What comes to a scope for one frame: inputs before its views are updated, among them the commands that are waiting,
and inputs from there to the making of the frame. -/
structure Turn where
  before : List ScopeInput
  after : List ScopeInput

/-- What a turn is to the stream of a name. -/
def Turn.eventsFor (name : String) (t : Turn) : List DisplayEvent :=
  t.before.filterMap (·.eventFor? name) ++ .update :: t.after.filterMap (·.eventFor? name)

/-- The first view of a name changed, if there is one. -/
def changeView (s : Scope) (name : String) (f : StreamView → StreamView) : Scope :=
  { s with views := (changeFirst name f s.views).getD s.views }

/-- The scope after an input. -/
def receive (s : Scope) : ScopeInput → Scope
  | .write stream w => s.changeView stream (·.next (.write w))
  | .command c => (s.applyLogged c).2

/-- The scope after inputs in order. -/
def receiveAll (s : Scope) (inputs : List ScopeInput) : Scope := inputs.foldl receive s

/-- Every view updated. -/
def updateAll (s : Scope) : Scope := { s with views := s.views.map (·.next .update) }

/-- The scope when the frame of a turn is made. -/
def turn (s : Scope) (t : Turn) : Scope :=
  { (s.receiveAll t.before).updateAll.receiveAll t.after with frames := s.frames + 1 }

/-- The frames of turns, with their numbers. -/
def showAll : List Turn → Scope → List (Nat × List Frame)
  | [], _ => []
  | t :: rest, s => ((s.turn t).frames, (s.turn t).views.map StreamView.frame) :: showAll rest (s.turn t)

/-! ## Turns and steps -/

theorem snd_updateLogged (v : StreamView) : (updateLogged v).2 = v.next .update := by
  show _ = v.update.2
  unfold updateLogged
  rcases v.update with ⟨_ | _, w⟩ <;> rfl

variable (s : Scope)

theorem updateAll_eq : s.updateAll = { s with views := (s.views.map updateLogged).map Prod.snd } := by
  rw [List.map_map]
  show _ = { s with views := s.views.map fun v => (updateLogged v).2 }
  simp only [snd_updateLogged]
  rfl

/-- Commands leave the count of frames and, unless they ask to quit, that nobody has asked to. -/
theorem applyAll_keeps (pending : List ScopeCommand) : (s.applyAll pending).2.frames = s.frames
    ∧ (.quit ∉ pending → (s.applyAll pending).2.quit = s.quit) := by
  induction pending generalizing s with
  | nil => exact ⟨rfl, fun _ => rfl⟩
  | cons c rest ih =>
    obtain ⟨frames, quit⟩ := ih (s.applyLogged c).2
    have kept : (s.applyLogged c).2.frames = s.frames ∧ (c ≠ .quit → (s.applyLogged c).2.quit = s.quit) := by
      cases c with
      | quit => exact ⟨rfl, fun no => absurd rfl no⟩
      | change stream c =>
        simp only [applyLogged, apply]
        cases changeFirst stream (·.apply c) s.views <;> exact ⟨rfl, fun _ => rfl⟩
    refine ⟨frames.trans kept.1, fun absent => ?_⟩
    rw [List.mem_cons, not_or] at absent
    exact (quit absent.2).trans (kept.2 (Ne.symm absent.1))

theorem receiveAll_command (pending : List ScopeCommand) :
    s.receiveAll (pending.map .command) = (s.applyAll pending).2 := by
  induction pending generalizing s with
  | nil => rfl
  | cons c rest ih => exact ih (s.applyLogged c).2

/-- The turn in which only the waiting commands come. -/
def Turn.ofPending (pending : List ScopeCommand) : Turn := ⟨pending.map .command, []⟩

/-- A step of the scope is such a turn. -/
theorem step_eq_turn (pending : List ScopeCommand) : (s.step pending).2.2 = s.turn (.ofPending pending)
    ∧ (s.step pending).1 = (s.turn (.ofPending pending)).views.map StreamView.frame := by
  have updated : s.turn (.ofPending pending)
      = { (s.applyAll pending).2.updateAll with frames := (s.applyAll pending).2.frames + 1 } := by
    rw [(s.applyAll_keeps pending).1, ← receiveAll_command]
    rfl
  rw [updated, updateAll_eq]
  exact ⟨rfl, rfl⟩

/-- A run that nothing ends shows the frames of such turns. -/
theorem run_eq_showAll {moments : List Moment} (on : ∀ m ∈ moments, m.shutdown = false ∧ .quit ∉ m.pending)
    (going : s.quit = false) : (run none moments s).1 = s.showAll (moments.map fun m => .ofPending m.pending) := by
  induction moments generalizing s with
  | nil => rfl
  | cons m rest ih =>
    obtain ⟨up, staying⟩ := on m List.mem_cons_self
    have goes : s.isOver m.shutdown none = false := by simp [isOver, up, going]
    have still : (s.step m.pending).2.2.quit = false := ((s.applyAll_keeps m.pending).2 staying).trans going
    obtain ⟨after, frames⟩ := s.step_eq_turn m.pending
    have others := ih (s.step m.pending).2.2 (fun m' mem => on m' (List.mem_cons_of_mem _ mem)) still
    rw [List.map_cons, showAll, ← frames, ← after, ← others, run, goes]
    rfl

/-! ## One stream among others -/

section

variable {stream : String} {f : StreamView → StreamView}

/-- A change of the first view of a name is seen under that name only. -/
theorem find?_changeFirst (keeps : ∀ v, (f v).name = v.name) (views : List StreamView) (name : String) :
    ((changeFirst stream f views).getD views).find? (·.name == name)
      = if stream = name then (views.find? (·.name == name)).map f else views.find? (·.name == name) := by
  induction views with
  | nil => simp [changeFirst]
  | cons v rest ih =>
    rw [changeFirst]
    by_cases this : v.name = stream
    · subst this
      by_cases same : v.name = name
      · simp [same, keeps]
      · simp [same, keeps]
    · have later : (((changeFirst stream f rest).map (v :: ·)).getD (v :: rest))
          = v :: (changeFirst stream f rest).getD rest := by
        cases changeFirst stream f rest <;> rfl
      rw [if_neg this, later, List.find?_cons, List.find?_cons]
      by_cases same : v.name = name
      · subst same
        simp [Ne.symm this]
      · have other : (v.name == name) = false := beq_eq_false_iff_ne.2 same
        rw [other]
        exact ih

theorem view?_changeView (keeps : ∀ v, (f v).name = v.name) (name : String) :
    (s.changeView stream f).view? name = if stream = name then (s.view? name).map f else s.view? name :=
  find?_changeFirst keeps s.views name

end

theorem snd_applyLogged_change (stream : String) (c : StreamCommand) :
    (s.applyLogged (.change stream c)).2 = s.changeView stream (·.next (.command c)) := by
  simp only [applyLogged, apply, changeView, StreamView.next]
  cases changeFirst stream (·.apply c) s.views <;> rfl

/-- An input does to a view what it is to its stream. -/
theorem view?_receive (input : ScopeInput) (name : String) :
    (s.receive input).view? name = (s.view? name).map (·.nextAll (input.eventFor? name).toList) := by
  have nothing : s.view? name = (s.view? name).map (·.nextAll []) := by simp [StreamView.nextAll]
  cases input with
  | write stream w =>
    rw [receive, s.view?_changeView (·.name_next (.write w)), ScopeInput.eventFor?]
    split
    · rfl
    · exact nothing
  | command c =>
    cases c with
    | quit => exact nothing
    | change stream c =>
      rw [receive, snd_applyLogged_change, s.view?_changeView (·.name_next (.command c)), ScopeInput.eventFor?]
      split
      · rfl
      · exact nothing

theorem view?_receiveAll (inputs : List ScopeInput) (name : String) :
    (s.receiveAll inputs).view? name = (s.view? name).map (·.nextAll (inputs.filterMap (·.eventFor? name))) := by
  induction inputs generalizing s with
  | nil => simp [receiveAll, StreamView.nextAll]
  | cons input rest ih =>
    refine (ih (s.receive input)).trans ?_
    rw [view?_receive, Option.map_map]
    refine congrArg (Option.map · _) (funext fun v => ?_)
    show (v.nextAll _).nextAll _ = v.nextAll _
    rw [← StreamView.nextAll_append, List.filterMap_cons]
    cases input.eventFor? name <;> rfl

theorem view?_updateAll (name : String) : s.updateAll.view? name = (s.view? name).map (·.next .update) := by
  have named : (fun v => v.name == name) ∘ (·.next .update) = fun v : StreamView => v.name == name :=
    funext fun v => congrArg (· == name) (v.name_next .update)
  rw [view?, updateAll, List.find?_map, named]
  rfl

/-- In a turn a view does what it would do on its own. -/
theorem view?_turn (t : Turn) (name : String) :
    (s.turn t).view? name = (s.view? name).map (·.nextAll (t.eventsFor name)) := by
  show ((s.receiveAll t.before).updateAll.receiveAll t.after).view? name = _
  rw [view?_receiveAll, view?_updateAll, view?_receiveAll, Option.map_map, Option.map_map]
  refine congrArg (Option.map · _) (funext fun v => ?_)
  rw [Turn.eventsFor, StreamView.nextAll_append]
  rfl

end Scope

/-! ## Frames of one stream -/

/-- The frame of a name among those of a turn. -/
def Frame.ofStream (name : String) (shown : Nat × List Frame) : Nat × Option Frame :=
  (shown.1, shown.2.find? (·.name == name))

/-- The frames of a view, if there is one, that nothing else is shown beside, with their numbers behind `number`. -/
def StreamView.showAlone : Nat → List (List DisplayEvent) → Option StreamView → List (Nat × Option Frame)
  | _, [], _ => []
  | number, events :: rest, v? =>
    (number + 1, (v?.map (·.nextAll events)).map frame) :: showAlone (number + 1) rest (v?.map (·.nextAll events))

namespace Scope

variable (s : Scope)

theorem find?_frames (name : String) :
    (s.views.map StreamView.frame).find? (·.name == name) = (s.view? name).map StreamView.frame := by
  rw [List.find?_map]
  rfl

/-- The frames of a stream are those of its view alone. -/
theorem showAll_ofStream (turns : List Turn) (name : String) : (s.showAll turns).map (Frame.ofStream name)
    = StreamView.showAlone s.frames (turns.map (·.eventsFor name)) (s.view? name) := by
  induction turns generalizing s with
  | nil => rfl
  | cons t rest ih =>
    rw [showAll, List.map_cons, ih, Frame.ofStream, find?_frames, view?_turn]
    rfl

/-- A view is there in all its frames. -/
theorem isSome_of_mem_showAlone {number : Nat} {turns : List (List DisplayEvent)} {v? : Option StreamView}
    (there : v?.isSome) : ∀ shown ∈ StreamView.showAlone number turns v?, shown.2.isSome := by
  induction turns generalizing number v? with
  | nil => exact fun _ mem => absurd mem List.not_mem_nil
  | cons events rest ih =>
    intro shown mem
    rcases List.mem_cons.1 mem with rfl | mem
    · simpa using there
    · exact ih (by simpa using there) shown mem

theorem changeFirst_eq_none {name : String} (f : StreamView → StreamView) {views : List StreamView}
    (unknown : ∀ v ∈ views, v.name ≠ name) : changeFirst name f views = none := by
  induction views with
  | nil => rfl
  | cons v rest ih =>
    rw [changeFirst, if_neg (unknown v List.mem_cons_self), ih fun w mem => unknown w (List.mem_cons_of_mem _ mem)]
    rfl

/-- A command for a stream that is not there is refused. -/
theorem apply_unknown {name : String} (unknown : ∀ v ∈ s.views, v.name ≠ name) (c : StreamCommand) :
    s.apply (.change name c) = .error ⟨name⟩ := by
  rw [apply, changeFirst_eq_none _ unknown]

end Scope

/-- **Streams are separate.** Two runs of a scope that bring the same to a stream in every turn show the same frames of
it, whatever they bring to others and in whatever order, and a stream that is there is shown in all of them. A command
for a stream that is not there is refused, and changes nothing. -/
theorem streams_separate (s : Scope) (name : String) (turns others : List Scope.Turn)
    (same : turns.map (·.eventsFor name) = others.map (·.eventsFor name)) :
    (s.showAll turns).map (Frame.ofStream name) = (s.showAll others).map (Frame.ofStream name)
      ∧ ((s.view? name).isSome → ∀ shown ∈ (s.showAll turns).map (Frame.ofStream name), shown.2.isSome)
      ∧ ∀ unknown, (∀ v ∈ s.views, v.name ≠ unknown) → ∀ c, s.apply (.change unknown c) = .error ⟨unknown⟩
        ∧ s.applyLogged (.change unknown c) = (.warn ("control: " ++ (UnknownStream.mk unknown).message), s) := by
  refine ⟨?_, ?_, ?_⟩
  · rw [s.showAll_ofStream, s.showAll_ofStream, same]
  · intro there
    rw [s.showAll_ofStream]
    exact Scope.isSome_of_mem_showAlone there
  · intro unknown absent c
    have refused := s.apply_unknown absent c
    refine ⟨refused, ?_⟩
    rw [Scope.applyLogged, refused]

/-! ## A quiet turn and a busy one -/

/-- Two streams. -/
def ScopeConfig.pair : ScopeConfig where
  streams := [.narrow, { StreamConfig.narrow with name := "fft" }]

namespace Scope.Turn

/-- A buffer comes to a stream, which is then switched off. -/
def quiet (buffer : Channels) : Turn where
  before := [.write "raw" (.push buffer), .command (.change "raw" .disable)]
  after := []

/-- The same, among a lot that happens elsewhere. -/
def busy (buffer : Channels) : Turn where
  before := [.command (.change "fft" (.setMode .spectrum)), .write "raw" (.push buffer),
    .command (.change "nowhere" .enable), .write "fft" .clear, .command (.change "raw" .disable)]
  after := [.write "fft" (.publish .failed)]

end Scope.Turn

theorem streams_separate_pair :
    [Scope.Turn.quiet (.zeros 128)].map (·.eventsFor "raw") = [Scope.Turn.busy (.zeros 128)].map (·.eventsFor "raw")
      ∧ (ScopeConfig.pair.scope.showAll [.quiet (.zeros 128)]).map (Frame.ofStream "raw")
        = (ScopeConfig.pair.scope.showAll [.busy (.zeros 128)]).map (Frame.ofStream "raw") :=
  ⟨rfl, (streams_separate ScopeConfig.pair.scope "raw" [.quiet (.zeros 128)] [.busy (.zeros 128)] rfl).1⟩

end Panadapter
