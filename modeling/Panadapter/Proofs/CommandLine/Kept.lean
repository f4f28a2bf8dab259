import Mathlib.Data.List.TakeDrop
import Panadapter.CommandLine.Grammar
import Panadapter.Proofs.Outcome

/-!
# What arguments keep

A relation between a record and the names of what was given holds of what has been read, if every option and every
positional argument keeps it when a value is put (`Grammar.Keeps`). A value that has not been looked at is put later,
so what has been read keeps its function in mind (`Progress.Holds`).

* Each step of the reading keeps the relation, and so does all of it (`Grammar.Keeps.scan`).
* At the end the relation holds of the record, and nothing that was given excludes another thing
  (`Grammar.Keeps.finish`).
* A value that stands in the argument of its option is put at once (`Grammar.scan_long`, `Grammar.scanLong_value`).
-/

namespace Panadapter.CommandLine

open Outcome (bind_eq_ok_iff map_eq_ok_iff)

variable {α : Type} {R : α → List String → Prop}

/-- How an option puts its value; a flag needs none. -/
def Action.put : Action α → String → α → Option α
  | .flag set => fun _ a => some (set a)
  | .value put => put

/-- A function that keeps a relation when it puts a value under a name. -/
def PutKeeps (R : α → List String → Prop) (name : String) (put : String → α → Option α) : Prop :=
  ∀ value a given after, R a given → put value a = some after → R after (name :: given)

theorem putKeeps_value {β : Type} {long : String} {short : Option Char} {read : String → Option β} {put : β → α → α}
    (keeps : ∀ text b a given, read text = some b → R a given → R (put b a) (long :: given)) :
    PutKeeps R (Opt.value long short read put).long (Opt.value long short read put).action.put := by
  intro text a given after holds found
  obtain ⟨b, read, rfl⟩ := Option.map_eq_some_iff.1 found
  exact keeps text b a given read holds

theorem putKeeps_flag {long : String} {short : Option Char} {set : α → α}
    (keeps : ∀ a given, R a given → R (set a) (long :: given)) :
    PutKeeps R (Opt.flag long short set).long (Opt.flag long short set).action.put := by
  intro text a given after holds found
  obtain rfl := Option.some.inj found
  exact keeps a given holds

/-- What has been read holds a relation, and keeps it when it looks at the value that it has not looked at. -/
structure Progress.Holds (p : Progress α) (R : α → List String → Prop) : Prop where
  record : R p.record p.given
  pending : ∀ w ∈ p.pending, PutKeeps R w.name w.put

/-- A command all of whose options and positional arguments keep a relation. -/
structure Grammar.Keeps (g : Grammar α) (R : α → List String → Prop) : Prop where
  options : ∀ o ∈ g.options, PutKeeps R o.long o.action.put
  positionals : ∀ a ∈ g.positionals, PutKeeps R a.name a.put

namespace Progress.Holds

variable {p q : Progress α}

theorem start {blank : α} (holds : R blank []) : (Progress.start blank).Holds R := ⟨holds, nofun⟩

theorem accept (h : p.Holds R) {name : String} {repeatable : Bool} {put : String → α → Option α} {value : String}
    (keeps : PutKeeps R name put) (accepted : p.accept name repeatable put value = .ok q) : q.Holds R := by
  unfold Progress.accept at accepted
  split at accepted
  · cases accepted
  · cases found : put value p.record with
    | none =>
      rw [found] at accepted
      cases accepted
    | some after =>
      rw [found] at accepted
      obtain rfl := Except.ok.inj accepted
      exact ⟨keeps value p.record p.given after h.record found, h.pending⟩

theorem settle (h : p.Holds R) (settled : p.settle = .ok q) : q.Holds R := by
  unfold Progress.settle at settled
  cases waiting : p.pending with
  | none =>
    rw [waiting] at settled
    exact Except.ok.inj settled ▸ h
  | some w =>
    rw [waiting] at settled
    have keeps : PutKeeps R w.name w.put := h.pending w waiting
    have rest : { p with pending := none }.Holds R := ⟨h.record, nofun⟩
    dsimp only at settled
    cases value : w.value with
    | none =>
      rw [value] at settled
      cases settled
    | some v =>
      rw [value] at settled
      exact rest.accept keeps settled

end Progress.Holds

namespace Grammar.Keeps

variable {g : Grammar α} {p q : Progress α}

theorem meetFlag (h : p.Holds R) {o : Opt α} {set : α → α} (keeps : PutKeeps R o.long fun _ a => some (set a))
    (met : Grammar.meetFlag p o set = .ok q) : q.Holds R := by
  obtain ⟨settled, before, accepted⟩ := bind_eq_ok_iff.1 met
  exact (h.settle before).accept keeps accepted

theorem meetValue (h : p.Holds R) {o : Opt α} {put : String → α → Option α} (keeps : PutKeeps R o.long put)
    {attached : Option String} (met : Grammar.meetValue p o put attached = .ok q) : q.Holds R := by
  obtain ⟨settled, before, after⟩ := bind_eq_ok_iff.1 met
  cases attached with
  | none =>
    obtain rfl := Except.ok.inj after
    exact ⟨(h.settle before).record, fun w here => Option.some.inj here ▸ keeps⟩
  | some v => exact (h.settle before).accept keeps after

theorem scanLong (k : g.Keeps R) (h : p.Holds R) {cs : List Char} (scanned : g.scanLong p cs = .ok q) :
    q.Holds R := by
  unfold Grammar.scanLong at scanned
  dsimp only at scanned
  split at scanned
  · -- A request for help gives no result.
    split at scanned
    · cases scanned
    · obtain ⟨_, -, helped⟩ := bind_eq_ok_iff.1 scanned
      cases helped
  · cases found : g.options.find? fun o => o.long == String.ofList (splitEquals cs).1 with
    | none =>
      rw [found] at scanned
      cases scanned
    | some o =>
      rw [found] at scanned
      have keeps := k.options o (List.mem_of_find?_eq_some found)
      cases action : o.action with
      | flag set =>
        simp only [action] at scanned keeps
        split at scanned
        · cases scanned
        · exact meetFlag h keeps scanned
      | value put =>
        simp only [action] at scanned keeps
        exact meetValue h keeps scanned

theorem scanShort (k : g.Keeps R) (h : p.Holds R) {cs : List Char} (scanned : g.scanShort p cs = .ok q) :
    q.Holds R := by
  induction cs generalizing p with
  | nil =>
    obtain rfl := Except.ok.inj scanned
    exact h
  | cons c rest ih =>
    unfold Grammar.scanShort at scanned
    split at scanned
    · rename_i same
      cases same
    · obtain ⟨_, -, helped⟩ := bind_eq_ok_iff.1 scanned
      cases helped
    · rename_i same
      obtain ⟨rfl, rfl⟩ := List.cons.inj same
      cases found : g.options.find? fun o => o.short == some c with
      | none =>
        rw [found] at scanned
        cases scanned
      | some o =>
        rw [found] at scanned
        have keeps := k.options o (List.mem_of_find?_eq_some found)
        cases action : o.action with
        | flag set =>
          simp only [action] at scanned keeps
          obtain ⟨next, first, later⟩ := bind_eq_ok_iff.1 scanned
          exact ih (meetFlag h keeps first) later
        | value put =>
          simp only [action] at scanned keeps
          exact meetValue h keeps scanned

theorem scanPositional (k : g.Keeps R) (h : p.Holds R) {text : String} (scanned : g.scanPositional p text = .ok q) :
    q.Holds R := by
  unfold Grammar.scanPositional at scanned
  cases found : g.positionals[p.positionals]? with
  | none =>
    rw [found] at scanned
    cases scanned
  | some a =>
    rw [found] at scanned
    obtain ⟨settled, before, after⟩ := bind_eq_ok_iff.1 scanned
    obtain rfl := Except.ok.inj after
    exact ⟨(h.settle before).record, fun w here => Option.some.inj here ▸ k.positionals a (List.mem_of_getElem? found)⟩

theorem scanPlain (k : g.Keeps R) (h : p.Holds R) {args : List String} (scanned : g.scanPlain p args = .ok q) :
    q.Holds R := by
  induction args generalizing p with
  | nil =>
    obtain rfl := Except.ok.inj scanned
    exact h
  | cons text rest ih =>
    obtain ⟨next, first, later⟩ := bind_eq_ok_iff.1 scanned
    exact ih (k.scanPositional h first) later

/-- All of the reading keeps the relation. -/
theorem scan (k : g.Keeps R) (h : p.Holds R) {args : List String} {below : Option (String × List String)}
    (scanned : g.scan p args = .ok (q, below)) : q.Holds R := by
  induction args generalizing p with
  | nil =>
    obtain ⟨rfl, -⟩ := Prod.mk.inj (Except.ok.inj scanned)
    exact h
  | cons text rest ih =>
    unfold Grammar.scan at scanned
    split at scanned
    · obtain ⟨rfl, -⟩ := Prod.mk.inj (Except.ok.inj scanned)
      exact h
    · split at scanned
      · cases scanned
      · split at scanned
        · obtain ⟨_, plain, same⟩ := map_eq_ok_iff.1 scanned
          obtain ⟨rfl, -⟩ := Prod.mk.inj same
          exact k.scanPlain h plain
        · obtain ⟨next, first, later⟩ := bind_eq_ok_iff.1 scanned
          exact ih (k.scanLong h first) later
        · obtain ⟨next, first, later⟩ := bind_eq_ok_iff.1 scanned
          exact ih (k.scanShort h first) later
        · split at scanned
          · rename_i w waiting
            split at scanned
            · have given : { p with pending := some { w with value := some text } }.Holds R := by
                refine ⟨h.record, ?_⟩
                rintro _ ⟨⟩
                exact h.pending w waiting
              exact ih given scanned
            · obtain ⟨next, first, later⟩ := bind_eq_ok_iff.1 scanned
              exact ih (k.scanPositional h first) later
          · obtain ⟨next, first, later⟩ := bind_eq_ok_iff.1 scanned
            exact ih (k.scanPositional h first) later

/-- At the end the relation holds of the record and the names of all that was given, and of these none excludes another
one. -/
theorem finish (h : p.Holds R) {a : α} (finished : g.finish p = .ok a) :
    ∃ given, R a given ∧ ∀ pair ∈ g.exclusive, ¬(pair.1 ∈ given ∧ pair.2 ∈ given) := by
  obtain ⟨settled, last, after⟩ := bind_eq_ok_iff.1 finished
  dsimp only at after
  split at after
  · cases after
  · rename_i right
    obtain rfl := Except.ok.inj after
    refine ⟨settled.given, (h.settle last).record, fun pair mem both => right ?_⟩
    simp only [Bool.or_eq_true]
    exact .inl (.inl (List.any_eq_true.2 ⟨pair, mem, by simpa using both⟩))

end Grammar.Keeps

/-! ## Arguments of long names -/

namespace Grammar

variable {g : Grammar α} {p : Progress α}

theorem splitEquals_append {name value : List Char} (apart : '=' ∉ name) :
    splitEquals (name ++ '=' :: value) = (name, some value) := by
  have before : ∀ c ∈ name, (c != '=') = true := fun c mem => bne_iff_ne.2 fun same => apart (same ▸ mem)
  rw [splitEquals, List.span_eq_takeWhile_dropWhile, List.takeWhile_append_of_pos before,
    List.dropWhile_append_of_pos before]
  simp

/-- An argument of a long name is no command and no value. -/
theorem scan_long {text : String} {long : List Char} (dashed : text.toList = '-' :: '-' :: long) (named : long ≠ [])
    (other : text ∉ g.commands) (rest : List String) :
    g.scan p (text :: rest) = g.scanLong p long >>= fun p => g.scan p rest := by
  have no_command : g.commands.contains text = false := by simpa using other
  have no_help : text ≠ "help" := by
    rintro rfl
    cases dashed
  obtain ⟨c, letters, rfl⟩ := List.exists_cons_of_ne_nil named
  rw [scan, no_command, dashed]
  simp [no_help]

/-- A value that stands in the argument of its option is put at once. -/
theorem scanLong_value {o : Opt α} {put : String → α → Option α} {name value : List Char} {after : α}
    (apart : '=' ∉ name) (no_help : String.ofList name ≠ "help")
    (found : (g.options.find? fun o => o.long == String.ofList name) = some o) (takes : o.action = .value put)
    (settled : p.pending = none) (new : o.long ∉ p.given) (right : put (String.ofList value) p.record = some after) :
    g.scanLong p (name ++ '=' :: value) = .ok { p with record := after, given := o.long :: p.given } := by
  have free : (p.given.contains o.long && !o.repeatable) = false := by simp [new]
  rw [scanLong, splitEquals_append apart]
  dsimp only
  rw [if_neg no_help, found]
  dsimp only
  rw [takes]
  show meetValue p o put (some (String.ofList value)) = _
  rw [meetValue, Progress.settle, settled]
  show p.accept o.long o.repeatable put (String.ofList value) = _
  rw [Progress.accept, if_neg (Bool.not_eq_true _ ▸ free), right, settled]

end Grammar

end Panadapter.CommandLine
