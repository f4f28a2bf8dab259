import Mathlib.Data.List.Nodup
import Panadapter.Proofs.Scope.Windows
import Panadapter.Proofs.Stream.Interleaving
import Panadapter.Receiver

/-!
# Windows and the capacity of queues

A configuration is refused if the queue of a stream cannot hold a window. A command that changes the length of the
window is not checked so.

* Every view of a run has the capacity of its configuration and the length that was asked for last
  (`Scope.Follows.nextAll`).
* Hence windows fit their queues as long as only such lengths are asked for, and a longer one starves the stream until
  another length is asked for (`windows_fit_iff`).
-/

namespace Panadapter

/-- What can happen to a scope: a command, a step of a worker on the stream at an index, and an update of the view at an
index. The worker may be anywhere in its program, with any buffer in its hands. -/
inductive ScopeEvent where
  | apply (c : ScopeCommand)
  | work (index : Nat) (w : Worker) (answers : Answers) (shutdown : Bool)
  | update (index : Nat)

/-- The length that an event asks for the stream of a name. -/
def ScopeEvent.lengthFor? (name : String) : ScopeEvent → Option FftLength
  | apply (.change stream (.setFftLength length)) => if stream = name then some length else none
  | _ => none

/-- The length that was asked for last. -/
def StreamConfig.lengthAfter (t : StreamConfig) (events : List ScopeEvent) : FftLength :=
  events.foldl (fun length e => (e.lengthFor? t.name).getD length) t.fftLength

theorem StreamConfig.lengthAfter_concat (t : StreamConfig) (events : List ScopeEvent) (e : ScopeEvent) :
    t.lengthAfter (events ++ [e]) = (e.lengthFor? t.name).getD (t.lengthAfter events) := by
  rw [lengthAfter, List.foldl_append]
  rfl

/-- Events that ask for no length leave it. -/
theorem StreamConfig.lengthAfter_append_of_none (t : StreamConfig) (events : List ScopeEvent) {later : List ScopeEvent}
    (none : ∀ e ∈ later, e.lengthFor? t.name = none) : t.lengthAfter (events ++ later) = t.lengthAfter events := by
  rw [lengthAfter, List.foldl_append, ← lengthAfter]
  generalize t.lengthAfter events = length
  induction later with
  | nil => rfl
  | cons e rest ih =>
    rw [List.foldl_cons, none e List.mem_cons_self, Option.getD_none]
    exact ih fun e' mem => none e' (List.mem_cons_of_mem _ mem)

/-- A step leaves the name and the capacity of a stream. -/
theorem Worker.step_keeps (w : Worker) (answers : Answers) (shutdown : Bool) (s : Stream) :
    (w.step answers shutdown s).2.1.control.name = s.control.name
      ∧ (w.step answers shutdown s).2.1.queue.capacity = s.queue.capacity := by
  refine ⟨?_, LiveStream.capacity_next ⟨w, s, shutdown⟩ (.work answers)⟩
  obtain ⟨source, layout, position⟩ := w
  obtain ⟨opened, started, polled⟩ := answers
  cases position with
  | opening => cases opened <;> rfl
  | starting device => cases started <;> rfl
  | polling device => cases polled <;> rfl
  | settling =>
    simp only [step, advance]
    split <;> rfl
  | _ => rfl

/-! ## Views -/

/-- A view with the name and the capacity that are configured, and a window of some length. -/
structure StreamView.Follows (v : StreamView) (t : StreamConfig) (length : FftLength) : Prop where
  name : v.name = t.name
  capacity : v.stream.queue.capacity = max t.queueCapacity 1
  fftLength : v.fftLength = length
  fits : v.Fits

namespace StreamView

theorem follows_viewOf (t : StreamConfig) : (Receiver.viewOf t).Follows t t.fftLength :=
  ⟨rfl, rfl, rfl, fits_ofConfig _ _ _⟩

@[simp] theorem name_apply (v : StreamView) (c : StreamCommand) : (v.apply c).name = v.name := by
  cases c with
  | setFftLength length =>
    show (v.setFftLength length).name = v.name
    unfold setFftLength
    split <;> rfl
  | _ => rfl

/-- An update leaves all of the stream but for the queue, which keeps its capacity. -/
theorem update_keeps (v : StreamView) : v.update.2.name = v.name
    ∧ v.update.2.stream.queue.capacity = v.stream.queue.capacity ∧ v.update.2.fftLength = v.fftLength := by
  unfold update
  split
  · exact ⟨rfl, rfl, rfl⟩
  · have shows := v.shows_showNext
    refine ⟨?_, ?_, shows.fftLength⟩
    · rw [name, shows.stream]
      rfl
    · rw [shows.stream]
      exact v.stream.queue.capacity_drainWindow _ _ _

namespace Follows

variable {v : StreamView} {t : StreamConfig} {length : FftLength}

theorem work (f : v.Follows t length) (w : Worker) (answers : Answers) (shutdown : Bool) :
    Follows { v with stream := (w.step answers shutdown v.stream).2.1 } t length := by
  obtain ⟨name, capacity⟩ := w.step_keeps answers shutdown v.stream
  exact ⟨name.trans f.name, capacity.trans f.capacity, f.fftLength, f.fits.withStream _⟩

theorem update (f : v.Follows t length) : v.update.2.Follows t length := by
  obtain ⟨name, capacity, same⟩ := v.update_keeps
  exact ⟨name.trans f.name, capacity.trans f.capacity, same.trans f.fftLength, f.fits.update⟩

/-- A command changes the length if it asks for one. -/
theorem apply (f : v.Follows t length) (c : StreamCommand) :
    (v.apply c).Follows t (((ScopeEvent.apply (.change v.name c)).lengthFor? t.name).getD length) := by
  have fits := f.fits.apply c
  have name := (v.name_apply c).trans f.name
  cases c with
  | setFftLength length' =>
    have asked : (ScopeEvent.apply (.change v.name (.setFftLength length'))).lengthFor? t.name = some length' :=
      if_pos f.name
    rw [asked, Option.getD_some]
    refine ⟨name, ?_, ?_, fits⟩
    · rw [← f.capacity]
      show (v.setFftLength length').stream.queue.capacity = _
      unfold setFftLength
      split <;> rfl
    · show (v.setFftLength length').fftLength = length'
      unfold setFftLength
      split
      · rename_i same
        exact same.symm
      · rfl
  | _ => exact ⟨name, f.capacity, f.fftLength, fits⟩

/-- A full queue gives a window exactly if it can hold one. -/
theorem fresh_update_iff (f : v.Follows t length) (on : v.stream.control.enabled = true)
    (full : v.stream.queue.size = v.stream.queue.capacity) :
    v.update.2.fresh = true ↔ length.points ≤ v.stream.queue.capacity := by
  rw [f.fits.fresh_update_iff, f.fftLength, full]
  exact and_iff_right on

/-- A queue that cannot hold a window never gives one. -/
theorem starved (f : v.Follows t length) (long : v.stream.queue.capacity < length.points) :
    v.update.2.fresh = false := by
  refine Bool.eq_false_iff.2 fun fresh => ?_
  have held := (f.fits.fresh_update_iff.1 fresh).2
  have bound := v.stream.queue.size_le_capacity
  rw [f.fftLength] at held
  omega

end Follows

end StreamView

/-! ## The scope -/

/-- The scope of a configuration, before anything has happened. -/
def ScopeConfig.scope (c : ScopeConfig) : Scope := .ofViews (c.streams.map Receiver.viewOf) c.fps

namespace Scope

/-- How things stand after an event. -/
def next (s : Scope) : ScopeEvent → Scope
  | .apply c => (s.applyLogged c).2
  | .work index w answers shutdown =>
    { s with views := s.views.modify index fun v => { v with stream := (w.step answers shutdown v.stream).2.1 } }
  | .update index => { s with views := s.views.modify index fun v => v.update.2 }

/-- How things stand after events in order. -/
def nextAll (s : Scope) (events : List ScopeEvent) : Scope := events.foldl next s

section

variable {name : String} {f : StreamView → StreamView} {views changed : List StreamView}

theorem names_changeFirst (keeps : ∀ v, (f v).name = v.name) (h : changeFirst name f views = some changed) :
    changed.map StreamView.name = views.map StreamView.name := by
  induction views generalizing changed with
  | nil => cases h
  | cons v rest ih =>
    rw [changeFirst] at h
    split at h
    · cases h
      rw [List.map_cons, keeps, List.map_cons]
    · obtain ⟨others, found, rfl⟩ := Option.map_eq_some_iff.1 h
      rw [List.map_cons, ih found, List.map_cons]

/-- Where names are not given twice, the view of the name is changed and all others stay. -/
theorem mem_changeFirst (nodup : (views.map StreamView.name).Nodup) (h : changeFirst name f views = some changed)
    {v : StreamView} (mem : v ∈ changed) :
    (∃ u ∈ views, u.name = name ∧ v = f u) ∨ (v ∈ views ∧ v.name ≠ name) := by
  induction views generalizing changed with
  | nil => cases h
  | cons u rest ih =>
    obtain ⟨apart, nodup⟩ := List.nodup_cons.1 nodup
    rw [changeFirst] at h
    split at h
    · rename_i this
      cases h
      rcases List.mem_cons.1 mem with rfl | mem
      · exact .inl ⟨u, List.mem_cons_self, this, rfl⟩
      · refine .inr ⟨List.mem_cons_of_mem _ mem, ?_⟩
        intro same
        exact apart (this.trans same.symm ▸ List.mem_map_of_mem mem)
    · rename_i other
      obtain ⟨others, found, rfl⟩ := Option.map_eq_some_iff.1 h
      rcases List.mem_cons.1 mem with rfl | mem
      · exact .inr ⟨List.mem_cons_self, other⟩
      · rcases ih nodup found mem with ⟨w, inside, this, rfl⟩ | ⟨inside, other⟩
        · exact .inl ⟨w, List.mem_cons_of_mem _ inside, this, rfl⟩
        · exact .inr ⟨List.mem_cons_of_mem _ inside, other⟩

theorem ne_of_changeFirst_eq_none (h : changeFirst name f views = none) {v : StreamView} (mem : v ∈ views) :
    v.name ≠ name := by
  induction views with
  | nil => cases mem
  | cons u rest ih =>
    rw [changeFirst] at h
    split at h
    · cases h
    · rename_i other
      rcases List.mem_cons.1 mem with rfl | mem
      · exact other
      · exact ih (Option.map_eq_none_iff.1 h) mem

end

/-- A scope whose views have the names and capacities of a configuration, and the lengths asked for last. -/
structure Follows (s : Scope) (streams : List StreamConfig) (events : List ScopeEvent) : Prop where
  names : s.views.map StreamView.name = streams.map StreamConfig.name
  each : ∀ v ∈ s.views, ∃ t ∈ streams, v.Follows t (t.lengthAfter events)

theorem follows_scope (c : ScopeConfig) : c.scope.Follows c.streams [] where
  names := by
    show (c.streams.map Receiver.viewOf).map StreamView.name = _
    rw [List.map_map]
    rfl
  each := by
    intro v mem
    obtain ⟨t, inside, rfl⟩ := List.mem_map.1 mem
    exact ⟨t, inside, StreamView.follows_viewOf t⟩

namespace Follows

variable {s : Scope} {streams : List StreamConfig} {events : List ScopeEvent}

/-- A view at an index that changes without a length asked for. -/
theorem modify (f : s.Follows streams events) (index : Nat) {g : StreamView → StreamView} {e : ScopeEvent}
    (silent : ∀ name, e.lengthFor? name = none)
    (keeps : ∀ {v t length}, StreamView.Follows v t length → (g v).Follows t length) :
    Follows { s with views := s.views.modify index g } streams (events ++ [e]) where
  names := by
    rw [← f.names]
    refine List.ext_getElem? fun k => ?_
    rw [List.getElem?_map, List.getElem?_map, List.getElem?_modify]
    cases at_k : s.views[k]? with
    | none => rfl
    | some v =>
      obtain ⟨t, -, follows⟩ := f.each v (List.mem_of_getElem? at_k)
      have kept : (g v).name = v.name := (keeps follows).name.trans follows.name.symm
      show some (if index = k then g v else v).name = some v.name
      split
      · rw [kept]
      · rfl
  each := by
    intro v mem
    obtain ⟨k, at_k⟩ := List.mem_iff_getElem?.1 mem
    rw [List.getElem?_modify] at at_k
    obtain ⟨u, before, rfl⟩ := Option.map_eq_some_iff.1 at_k
    obtain ⟨t, inside, follows⟩ := f.each u (List.mem_of_getElem? before)
    refine ⟨t, inside, ?_⟩
    rw [StreamConfig.lengthAfter_concat, silent, Option.getD_none]
    split
    · exact keeps follows
    · exact follows

/-- A command for the stream of a name, or for one that is not there. -/
theorem change (f : s.Follows streams events) (nodup : (streams.map StreamConfig.name).Nodup) (name : String)
    (command : StreamCommand) :
    (s.next (.apply (.change name command))).Follows streams (events ++ [.apply (.change name command)]) := by
  rw [← f.names] at nodup
  have others : ∀ v ∈ s.views, v.name ≠ name →
      ∃ t ∈ streams, v.Follows t (t.lengthAfter (events ++ [.apply (.change name command)])) := by
    intro v mem other
    obtain ⟨t, inside, follows⟩ := f.each v mem
    have silent : (ScopeEvent.apply (.change name command)).lengthFor? t.name = none := by
      cases command with
      | setFftLength length =>
        refine if_neg fun same => other ?_
        rw [follows.name, same]
      | _ => rfl
    refine ⟨t, inside, ?_⟩
    rw [StreamConfig.lengthAfter_concat, silent]
    exact follows
  simp only [next, applyLogged, apply]
  cases found : changeFirst name (·.apply command) s.views with
  | none => exact ⟨f.names, fun v mem => others v mem (ne_of_changeFirst_eq_none found mem)⟩
  | some changed =>
    refine ⟨(names_changeFirst (·.name_apply command) found).trans f.names, ?_⟩
    intro v mem
    rcases mem_changeFirst nodup found mem with ⟨u, before, rfl, rfl⟩ | ⟨before, other⟩
    · obtain ⟨t, inside, follows⟩ := f.each u before
      refine ⟨t, inside, ?_⟩
      rw [StreamConfig.lengthAfter_concat]
      exact follows.apply command
    · exact others v before other

/-- Every event keeps the names and capacities, and changes a length only if it asks for one. -/
theorem next (f : s.Follows streams events) (nodup : (streams.map StreamConfig.name).Nodup) (e : ScopeEvent) :
    (s.next e).Follows streams (events ++ [e]) := by
  cases e with
  | apply c =>
    cases c with
    | change name command => exact f.change nodup name command
    | quit =>
      refine ⟨f.names, ?_⟩
      intro v mem
      obtain ⟨t, inside, follows⟩ := f.each v mem
      refine ⟨t, inside, ?_⟩
      rw [StreamConfig.lengthAfter_concat]
      exact follows
  | work index w answers shutdown => exact f.modify index (fun _ => rfl) fun follows => follows.work w answers shutdown
  | update index => exact f.modify index (fun _ => rfl) fun follows => follows.update

/-- Every run keeps them. -/
theorem nextAll (f : s.Follows streams events) (nodup : (streams.map StreamConfig.name).Nodup)
    (later : List ScopeEvent) : (s.nextAll later).Follows streams (events ++ later) := by
  induction later generalizing s events with
  | nil =>
    rw [List.append_nil]
    exact f
  | cons e rest ih =>
    rw [List.append_cons]
    exact ih (f.next nodup e)

end Follows

/-! ## Lengths that fit -/

/-- Whether every queue can hold a window of its view. -/
def WindowsFit (s : Scope) : Prop := ∀ v ∈ s.views, v.fftLength.points ≤ v.stream.queue.capacity

theorem Follows.windowsFit_iff {s : Scope} {streams : List StreamConfig} {events : List ScopeEvent}
    (f : s.Follows streams events) (nodup : (streams.map StreamConfig.name).Nodup) :
    s.WindowsFit ↔ ∀ t ∈ streams, (t.lengthAfter events).points ≤ max t.queueCapacity 1 := by
  constructor
  · intro fit t inside
    have shown : t.name ∈ s.views.map StreamView.name := f.names ▸ List.mem_map_of_mem inside
    obtain ⟨v, mem, same⟩ := List.mem_map.1 shown
    obtain ⟨u, inside', follows⟩ := f.each v mem
    obtain rfl : u = t := List.inj_on_of_nodup_map nodup inside' inside (follows.name.symm.trans same)
    rw [← follows.fftLength, ← follows.capacity]
    exact fit v mem
  · intro fit v mem
    obtain ⟨t, inside, follows⟩ := f.each v mem
    rw [follows.fftLength, follows.capacity]
    exact fit t inside

end Scope

/-- Only one event asks for a length. -/
theorem ScopeEvent.eq_of_lengthFor? {name : String} {e : ScopeEvent} {length : FftLength}
    (h : e.lengthFor? name = some length) : e = apply (.change name (.setFftLength length)) := by
  cases e with
  | apply c =>
    cases c with
    | change stream command =>
      cases command with
      | setFftLength length' =>
        rw [lengthFor?] at h
        split at h
        · rename_i same
          cases h
          rw [same]
        · cases h
      | _ => cases h
    | quit => cases h
  | _ => cases h

namespace StreamConfig

/-- The length is the one that is configured, or has been asked for. -/
theorem lengthAfter_cases (t : StreamConfig) (events : List ScopeEvent) : t.lengthAfter events = t.fftLength
    ∨ ScopeEvent.apply (.change t.name (.setFftLength (t.lengthAfter events))) ∈ events := by
  rw [lengthAfter]
  generalize t.fftLength = length
  induction events generalizing length with
  | nil => exact .inl rfl
  | cons e rest ih =>
    rw [List.foldl_cons]
    rcases ih ((e.lengthFor? t.name).getD length) with same | asked
    · rw [same]
      cases h : e.lengthFor? t.name with
      | none => exact .inl rfl
      | some length' =>
        rw [Option.getD_some, ← ScopeEvent.eq_of_lengthFor? h]
        exact .inr List.mem_cons_self
    · exact .inr (List.mem_cons_of_mem _ asked)

theorem lengthAfter_asked (t : StreamConfig) (events : List ScopeEvent) (length : FftLength) :
    t.lengthAfter (events ++ [.apply (.change t.name (.setFftLength length))]) = length := by
  rw [lengthAfter_concat, ScopeEvent.lengthFor?, if_pos rfl, Option.getD_some]

end StreamConfig

namespace ScopeConfig

variable {c : ScopeConfig} (valid : c.validate = .ok ())

include valid

theorem follows_nextAll (events : List ScopeEvent) : (c.scope.nextAll events).Follows c.streams events :=
  (Scope.follows_scope c).nextAll (of_validate valid).1 events

/-- The queue of a stream has the capacity that is configured. -/
theorem max_queueCapacity {t : StreamConfig} (inside : t ∈ c.streams) : max t.queueCapacity 1 = t.queueCapacity := by
  have held := (of_validate valid).2 t inside
  have pos := t.fftLength.points_pos
  omega

theorem windowsFit_nextAll_iff (events : List ScopeEvent) :
    (c.scope.nextAll events).WindowsFit ↔ ∀ t ∈ c.streams, (t.lengthAfter events).points ≤ t.queueCapacity := by
  rw [(follows_nextAll valid events).windowsFit_iff (of_validate valid).1]
  constructor
  · intro fit t inside
    rw [← max_queueCapacity valid inside]
    exact fit t inside
  · intro fit t inside
    rw [max_queueCapacity valid inside]
    exact fit t inside

/-- All windows of a run fit exactly if all lengths do that are asked for. -/
theorem windowsFit_prefix_iff (events : List ScopeEvent) :
    (∀ first, first <+: events → (c.scope.nextAll first).WindowsFit)
      ↔ ∀ t ∈ c.streams, ∀ length, .apply (.change t.name (.setFftLength length)) ∈ events →
        length.points ≤ t.queueCapacity := by
  constructor
  · intro fit t inside length asked
    obtain ⟨before, after, rfl⟩ := List.append_of_mem asked
    have moment := fit (before ++ [.apply (.change t.name (.setFftLength length))]) ⟨after, List.append_assoc ..⟩
    have fits := (windowsFit_nextAll_iff valid _).1 moment t inside
    rw [t.lengthAfter_asked] at fits
    exact fits
  · intro asked first part
    refine (windowsFit_nextAll_iff valid first).2 fun t inside => ?_
    rcases t.lengthAfter_cases first with same | mem
    · rw [same]
      exact (of_validate valid).2 t inside
    · exact asked t inside _ (part.subset mem)

/-- A stream whose window does not fit gets none. -/
theorem starved {events : List ScopeEvent} {t : StreamConfig} (inside : t ∈ c.streams)
    (long : t.queueCapacity < (t.lengthAfter events).points) {v : StreamView}
    (mem : v ∈ (c.scope.nextAll events).views) (same : v.name = t.name) : v.update.2.fresh = false := by
  obtain ⟨u, inside', f⟩ := (follows_nextAll valid events).each v mem
  obtain rfl : u = t :=
    List.inj_on_of_nodup_map (of_validate valid).1 inside' inside (f.name.symm.trans same)
  refine f.starved ?_
  rw [f.capacity, max_queueCapacity valid inside]
  exact long

end ScopeConfig

/-- **Windows fit their queues**, at every moment of a run of a valid configuration, exactly if no length is asked for
that is longer than the queue of its stream. A full queue gives a window at the next update as long as the window fits,
and a window that does not fit is never given, whatever happens, until another length is asked for. -/
theorem windows_fit_iff (c : ScopeConfig) (valid : c.validate = .ok ()) (events : List ScopeEvent) :
    ((∀ first, first <+: events → (c.scope.nextAll first).WindowsFit)
      ↔ ∀ t ∈ c.streams, ∀ length, .apply (.change t.name (.setFftLength length)) ∈ events →
        length.points ≤ t.queueCapacity)
    ∧ (∀ v ∈ (c.scope.nextAll events).views, v.stream.control.enabled = true →
        v.stream.queue.size = v.stream.queue.capacity →
        (v.update.2.fresh = true ↔ v.fftLength.points ≤ v.stream.queue.capacity))
    ∧ ∀ t ∈ c.streams, t.queueCapacity < (t.lengthAfter events).points →
        ∀ later, (∀ e ∈ later, e.lengthFor? t.name = none) →
        ∀ v ∈ (c.scope.nextAll (events ++ later)).views, v.name = t.name → v.update.2.fresh = false := by
  refine ⟨ScopeConfig.windowsFit_prefix_iff valid events, ?_, ?_⟩
  · intro v mem on full
    obtain ⟨t, -, f⟩ := (ScopeConfig.follows_nextAll valid events).each v mem
    rw [f.fresh_update_iff on full, f.fftLength]
  · intro t inside long later silent v mem same
    rw [← t.lengthAfter_append_of_none events silent] at long
    exact ScopeConfig.starved valid inside long mem same

/-! ## A length that does not fit -/

/-- One stream with a queue for just one window. -/
def ScopeConfig.narrow : ScopeConfig where
  streams := [.narrow]

/-- Windows of 256 are asked for, and then a buffer arrives. -/
def ScopeEvent.lengthening (buffer : Channels) : List ScopeEvent :=
  [.apply (.change "raw" (.setFftLength ⟨8, by decide, by decide⟩)),
   .work 0 ⟨"", .ofStride 2 1, .pushing "" buffer⟩ ⟨.ok "", .ok (), none⟩ false]

theorem view_lengthening (buffer : Channels) :
    ∃ v, (ScopeConfig.narrow.scope.nextAll (ScopeEvent.lengthening buffer)).views = [v] ∧ v.name = "raw"
      ∧ v.stream.control.enabled = true ∧ v.stream.queue = (SampleQueue.ofCapacity 128).push buffer :=
  ⟨_, rfl, rfl, rfl, rfl⟩

theorem windows_fit_narrow : ScopeConfig.narrow.validate = .ok ()
    ∧ ¬∀ first, first <+: ScopeEvent.lengthening .empty → (ScopeConfig.narrow.scope.nextAll first).WindowsFit := by
  have exact_condition := (windows_fit_iff ScopeConfig.narrow rfl (ScopeEvent.lengthening .empty)).1
  refine ⟨rfl, ?_⟩
  rw [exact_condition]
  intro fit
  have small := fit _ List.mem_cons_self ⟨8, by decide, by decide⟩ List.mem_cons_self
  exact absurd small (by decide)

/-- So a full queue of a stream that is switched on may give nothing: a command can ask for a window that is too long. -/
theorem not_forall_full_fresh : ¬∀ c : ScopeConfig, c.validate = .ok () → ∀ events,
    ∀ v ∈ (c.scope.nextAll events).views, v.stream.control.enabled = true →
      v.stream.queue.size = v.stream.queue.capacity → v.update.2.fresh = true := by
  intro always
  obtain ⟨v, only, name, on, queue⟩ := view_lengthening (.zeros 128)
  have mem : v ∈ (ScopeConfig.narrow.scope.nextAll (ScopeEvent.lengthening (.zeros 128))).views :=
    only ▸ List.mem_singleton_self v
  have full : v.stream.queue.size = v.stream.queue.capacity := by
    have buffer : (Channels.zeros 128).size = 128 := by simp [Channels.zeros, Channels.size]
    rw [queue, SampleQueue.size_push, ← SampleQueue.length_toList, SampleQueue.toList_ofCapacity, buffer]
    rfl
  have starved : v.update.2.fresh = false :=
    ScopeConfig.starved (c := .narrow) rfl (List.mem_singleton_self StreamConfig.narrow) (by decide) mem name
  rw [always .narrow rfl _ v mem on full] at starved
  cases starved

end Panadapter
