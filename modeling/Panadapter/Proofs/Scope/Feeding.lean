import Mathlib.Data.List.Chain
import Panadapter.Proofs.Scope.Updates

/-!
# Rows on cadence

An update counts for the waterfall if the stream is switched on, spectra are shown, and the waterfall is
(`StreamView.IsEligible`). One such update in so many adds a row.

* The multiples of a cadence beyond a number (`Cadence.due`), which come one by one as the count goes on
  (`Cadence.due_succ`).
* What an update does to the waterfall and its cadence (`StreamView.next_update_of_not_eligible`,
  `StreamView.Fits.next_update`).
* `Feeding`: a view with the count of its eligible updates, and which of them have added rows.
* The cadence counts the eligible updates whatever comes between them (`Feeding.Paced.next`), and while it is not set
  anew, rows are added by those that are due (`Feeding.Since.next`). Hence `rows_on_cadence`.
-/

namespace Panadapter

/-- The cadence that a command asks for. -/
def DisplayEvent.every? : DisplayEvent → Option Nat
  | .command (.setCadence every) => some every
  | _ => none

/-- A cadence is left as it is if its own is asked for. -/
@[simp] theorem Cadence.setEvery_every (c : Cadence) : c.setEvery c.every = c := by
  obtain ⟨every, frames, pos⟩ := c
  simp [setEvery, Nat.max_eq_left pos]

namespace Cadence

/-- The multiples of `every` beyond `earlier`, up to `later`. -/
def due (every earlier later : Nat) : List Nat :=
  List.range' ((earlier / every + 1) * every) (later / every - earlier / every) every

variable {every earlier later : Nat}

theorem due_self (every earlier : Nat) : due every earlier earlier = [] := by simp [due]

theorem due_succ (le : earlier ≤ later) :
    due every earlier (later + 1)
      = if every ∣ later + 1 then due every earlier later ++ [later + 1] else due every earlier later := by
  have blocks : (later + 1) / every = later / every + if every ∣ later + 1 then 1 else 0 := Nat.succ_div ..
  have mono : earlier / every ≤ later / every := Nat.div_le_div_right le
  unfold due
  split
  · rename_i multiple
    rw [if_pos multiple] at blocks
    -- The last multiple is the one right after those up to `later`.
    have last : (earlier / every + 1) * every + every * (later / every - earlier / every) = later + 1 := by
      have whole : (later / every + 1) * every = later + 1 := blocks ▸ Nat.div_mul_cancel multiple
      rw [← whole, Nat.mul_comm every, ← Nat.add_mul]
      congr 1
      omega
    rw [blocks, Nat.sub_add_comm mono, List.range'_concat, last]
  · rename_i other
    rw [blocks, if_neg other, Nat.add_zero (later / every)]

end Cadence

namespace StreamView

/-- A view that may feed its waterfall with its next update. -/
structure IsEligible (v : StreamView) : Prop where
  on : v.stream.control.enabled = true
  spectral : v.mode = .spectrum
  shown : v.waterfallShown = true

instance (v : StreamView) : Decidable v.IsEligible :=
  decidable_of_iff (v.stream.control.enabled = true ∧ v.mode = .spectrum ∧ v.waterfallShown = true)
    ⟨fun ⟨on, spectral, shown⟩ => ⟨on, spectral, shown⟩, fun e => ⟨e.on, e.spectral, e.shown⟩⟩

variable {v : StreamView}

/-- Another length touches nothing that belongs to the waterfall. -/
theorem setFftLength_keeps (v : StreamView) (length : FftLength) :
    (v.setFftLength length).cadence = v.cadence ∧ (v.setFftLength length).waterfall = v.waterfall := by
  unfold setFftLength
  split <;> exact ⟨rfl, rfl⟩

/-! ## One update -/

theorem feedWaterfall_of_hidden (hidden : v.waterfallShown = false) : v.feedWaterfall = v := by
  simp [feedWaterfall, hidden]

/-- A frame that is due adds the spectrum as a row; every frame is counted. -/
theorem feedWaterfall_of_shown (shown : v.waterfallShown = true) :
    v.feedWaterfall = { v with
      cadence := { v.cadence with frames := v.cadence.frames + 1 }
      waterfall :=
        if v.cadence.every ∣ v.cadence.frames + 1 then v.waterfall.append v.spectrum else v.waterfall } := by
  simp only [feedWaterfall, shown, ↓reduceIte, Cadence.tick]
  by_cases due : v.cadence.every ∣ v.cadence.frames + 1
  · simp [due, Nat.mod_eq_zero_of_dvd due]
  · have undue : ((v.cadence.frames + 1) % v.cadence.every == 0) = false :=
      beq_eq_false_iff_ne.2 (mt Nat.dvd_of_mod_eq_zero due)
    simp [due, undue]

/-- While spectra are shown, an update takes the window, computes what it can, and then feeds the waterfall. -/
theorem showNext_spectral (spectral : v.mode = .spectrum) :
    (∃ e, v.showNext = (.error e, v.takeWindow))
      ∨ ∃ processor spectrum peak,
        v.showNext = (.ok (), feedWaterfall { v.takeWindow with processor, spectrum, peak }) := by
  have mode : ¬v.takeWindow.mode ≠ .spectrum := fun other => other spectral
  unfold showNext
  dsimp only
  rw [if_neg mode]
  split
  · cases refreshed : v.takeWindow.refresh with
    | error e => exact .inl ⟨e, rfl⟩
    | ok w =>
      obtain ⟨processor, spectrum, peak, rfl⟩ := eq_of_refresh refreshed
      exact .inr ⟨processor, spectrum, peak, rfl⟩
  · exact .inr ⟨_, _, _, rfl⟩

/-- An update that is not eligible leaves the waterfall and its cadence. -/
theorem next_update_of_not_eligible (h : ¬v.IsEligible) :
    (v.next .update).waterfall = v.waterfall ∧ (v.next .update).cadence = v.cadence := by
  show v.update.2.waterfall = v.waterfall ∧ v.update.2.cadence = v.cadence
  cases on : v.stream.control.enabled with
  | false =>
    rw [update_of_off on]
    exact ⟨rfl, rfl⟩
  | true =>
    rw [update_of_on on]
    by_cases spectral : v.mode = .spectrum
    · have hidden : v.waterfallShown = false := Bool.eq_false_iff.2 fun shown => h ⟨on, spectral, shown⟩
      rcases showNext_spectral spectral with ⟨e, failed⟩ | ⟨processor, spectrum, peak, fed⟩
      · rw [failed]
        exact ⟨rfl, rfl⟩
      · have kept := feedWaterfall_of_hidden (v := { v.takeWindow with processor, spectrum, peak }) hidden
        rw [fed, kept]
        exact ⟨rfl, rfl⟩
    · rw [showNext_samples spectral]
      exact ⟨rfl, rfl⟩

/-- An eligible one is counted, and adds a row if its number is a multiple of the cadence. -/
theorem Fits.next_update (f : v.Fits) (e : v.IsEligible) :
    (v.next .update).cadence = { v.cadence with frames := v.cadence.frames + 1 }
      ∧ ∃ row, (v.next .update).waterfall
        = if v.cadence.every ∣ v.cadence.frames + 1 then v.waterfall.append row else v.waterfall := by
  show v.update.2.cadence = _ ∧ ∃ row, v.update.2.waterfall = _
  rw [update_of_on e.on]
  rcases showNext_spectral e.spectral with ⟨fault, failed⟩ | ⟨processor, spectrum, peak, fed⟩
  · have right := f.fst_showNext
    rw [failed] at right
    cases right
  · rw [fed, feedWaterfall_of_shown (v := { v.takeWindow with processor, spectrum, peak }) e.shown]
    exact ⟨rfl, spectrum, rfl⟩

/-- Whatever else it does, an update adds one row to the waterfall or none. -/
theorem Fits.waterfall_next_update (f : v.Fits) :
    (v.next .update).waterfall = v.waterfall ∨ ∃ row, (v.next .update).waterfall = v.waterfall.append row := by
  by_cases e : v.IsEligible
  · obtain ⟨-, row, fed⟩ := f.next_update e
    rw [fed]
    split
    · exact .inr ⟨row, rfl⟩
    · exact .inl rfl
  · exact .inl (next_update_of_not_eligible e).1

/-- A command may set another cadence, but it leaves the count of the frames. -/
theorem cadence_apply (v : StreamView) (c : StreamCommand) :
    (v.apply c).cadence = v.cadence.setEvery ((DisplayEvent.command c).every?.getD v.cadence.every) := by
  cases c with
  | setCadence every => rfl
  | setFftLength length => exact (v.setFftLength_keeps length).1.trans (Cadence.setEvery_every _).symm
  | _ => exact (Cadence.setEvery_every _).symm

/-- Only one command touches the waterfall. -/
theorem waterfall_apply (v : StreamView) {c : StreamCommand} (other : c ≠ .clearWaterfall) :
    (v.apply c).waterfall = v.waterfall := by
  cases c with
  | clearWaterfall => exact absurd rfl other
  | setFftLength length => exact (v.setFftLength_keeps length).2
  | _ => rfl

/-- A view whose next update adds a row to the waterfall. -/
def AddsRow (v : StreamView) : Prop := (v.next .update).waterfall.appended ≠ v.waterfall.appended

instance (v : StreamView) : Decidable v.AddsRow := inferInstanceAs (Decidable (_ ≠ _))

/-- Rows are added by the eligible updates whose number is a multiple of the cadence. -/
theorem Fits.addsRow_iff (f : v.Fits) :
    v.AddsRow ↔ v.IsEligible ∧ v.cadence.every ∣ v.cadence.frames + 1 := by
  unfold AddsRow
  by_cases e : v.IsEligible
  · obtain ⟨-, row, fed⟩ := f.next_update e
    rw [fed]
    split
    · rename_i due
      exact iff_of_true (Nat.succ_ne_self _) ⟨e, due⟩
    · rename_i undue
      exact iff_of_false (fun added => added rfl) fun both => undue both.2
  · rw [(next_update_of_not_eligible e).1]
    exact iff_of_false (fun added => added rfl) fun both => e both.1

end StreamView

/-! ## Eligible updates and the rows they add -/

/-- A view, the count of its eligible updates, and the numbers of those that have added a row, counted from 1. -/
structure Feeding where
  view : StreamView
  eligible : Nat
  additions : List Nat

namespace Feeding

/-- The view of a configuration that nothing has come to. -/
def ofConfig (planner : Planner) (c : StreamConfig) (stream : Stream) : Feeding := ⟨.ofConfig planner c stream, 0, []⟩

/-- The count after the next update. -/
def eligibleNext (x : Feeding) : Nat := if x.view.IsEligible then x.eligible + 1 else x.eligible

/-- How things stand after an event. -/
def next (x : Feeding) (e : DisplayEvent) : Feeding where
  view := x.view.next e
  eligible :=
    match e with
    | .update => x.eligibleNext
    | _ => x.eligible
  additions :=
    match e with
    | .update => if x.view.AddsRow then x.additions ++ [x.eligibleNext] else x.additions
    | _ => x.additions

/-- How things stand after events in order. -/
def nextAll (x : Feeding) (events : List DisplayEvent) : Feeding := events.foldl next x

variable {x y : Feeding} {every : Nat}

theorem nextAll_cons (x : Feeding) (e : DisplayEvent) (events : List DisplayEvent) :
    x.nextAll (e :: events) = (x.next e).nextAll events := rfl

theorem view_nextAll (x : Feeding) (events : List DisplayEvent) : (x.nextAll events).view = x.view.nextAll events := by
  induction events generalizing x with
  | nil => rfl
  | cons e rest ih => exact ih (x.next e)

/-- The cadence has counted the eligible updates, and nothing else. -/
structure Paced (x : Feeding) (every : Nat) : Prop where
  fits : x.view.Fits
  frames : x.view.cadence.frames = x.eligible
  every_eq : x.view.cadence.every = every

namespace Paced

theorem pos (p : x.Paced every) : 0 < every := p.every_eq ▸ x.view.cadence.every_pos

/-- Every event keeps the pace, and a command may set another one. -/
theorem next (p : x.Paced every) (e : DisplayEvent) : (x.next e).Paced (max (e.every?.getD every) 1) := by
  have fits : (x.view.next e).Fits := p.fits.next e
  have same : max every 1 = every := Nat.max_eq_left p.pos
  cases e with
  | write w => exact ⟨fits, p.frames, p.every_eq.trans same.symm⟩
  | command c =>
    have cadence := x.view.cadence_apply c
    rw [p.every_eq] at cadence
    refine ⟨fits, ?_, congrArg Cadence.every cadence⟩
    exact (congrArg Cadence.frames cadence).trans p.frames
  | update =>
    by_cases eligible : x.view.IsEligible
    · obtain ⟨cadence, -⟩ := p.fits.next_update eligible
      have counted : (x.next .update).eligible = x.eligible + 1 := if_pos eligible
      refine ⟨fits, ?_, (congrArg Cadence.every cadence).trans (p.every_eq.trans same.symm)⟩
      rw [counted, ← p.frames]
      exact congrArg Cadence.frames cadence
    · obtain ⟨-, cadence⟩ := StreamView.next_update_of_not_eligible eligible
      have counted : (x.next .update).eligible = x.eligible := if_neg eligible
      refine ⟨fits, ?_, (congrArg Cadence.every cadence).trans (p.every_eq.trans same.symm)⟩
      rw [counted, ← p.frames]
      exact congrArg Cadence.frames cadence

/-- So does every run. -/
theorem nextAll (p : x.Paced (max every 1)) (events : List DisplayEvent) :
    (x.nextAll events).Paced (max (events.foldl (fun every e => e.every?.getD every) every) 1) := by
  induction events generalizing x every with
  | nil => exact p
  | cons e rest ih =>
    have stepped := p.next e
    refine ih ?_
    cases asked : e.every? with
    | none => simpa [asked] using stepped
    | some every => simpa [asked] using stepped

end Paced

/-- What a stretch of a run under one cadence has added: a row for each multiple of the cadence among the numbers of its
eligible updates. -/
structure Since (x y : Feeding) (every : Nat) : Prop where
  paced : y.Paced every
  le : x.eligible ≤ y.eligible
  additions : y.additions = x.additions ++ Cadence.due every x.eligible y.eligible

namespace Since

theorem refl (p : x.Paced every) : x.Since x every := ⟨p, Nat.le_refl _, by rw [Cadence.due_self, List.append_nil]⟩

/-- An eligible update is the next multiple of the cadence, or it adds nothing. -/
theorem update (s : x.Since y every) : x.Since (y.next .update) every := by
  have same : max every 1 = every := Nat.max_eq_left s.paced.pos
  have paced : (y.next .update).Paced every := same ▸ s.paced.next .update
  have adds := s.paced.fits.addsRow_iff
  rw [s.paced.every_eq, s.paced.frames] at adds
  by_cases eligible : y.view.IsEligible
  · have counted : (y.next .update).eligible = y.eligible + 1 := if_pos eligible
    refine ⟨paced, counted ▸ Nat.le_succ_of_le s.le, ?_⟩
    rw [counted, Cadence.due_succ s.le]
    split
    · rename_i due
      have added : (y.next .update).additions = y.additions ++ [y.eligible + 1] := by
        simp [Feeding.next, adds, eligible, due, eligibleNext]
      rw [added, s.additions, List.append_assoc]
    · rename_i due
      have kept : (y.next .update).additions = y.additions := by
        simp [Feeding.next, adds, due]
      rw [kept, s.additions]
  · have counted : (y.next .update).eligible = y.eligible := if_neg eligible
    have kept : (y.next .update).additions = y.additions := by
      simp [Feeding.next, adds, eligible]
    exact ⟨paced, counted ▸ s.le, by rw [counted, kept, s.additions]⟩

/-- Nothing else changes the count or adds a row. -/
theorem next (s : x.Since y every) {e : DisplayEvent} (steady : ∀ n ∈ e.every?, max n 1 = every) :
    x.Since (y.next e) every := by
  have same : max (e.every?.getD every) 1 = every := by
    cases asked : e.every? with
    | none => exact Nat.max_eq_left s.paced.pos
    | some n => exact steady n asked
  have paced : (y.next e).Paced every := same ▸ s.paced.next e
  cases e with
  | update => exact s.update
  | _ => exact ⟨paced, s.le, s.additions⟩

theorem nextAll (s : x.Since y every) {stretch : List DisplayEvent}
    (steady : ∀ e ∈ stretch, ∀ n ∈ e.every?, max n 1 = every) : x.Since (y.nextAll stretch) every := by
  induction stretch generalizing y with
  | nil => exact s
  | cons e rest ih =>
    obtain ⟨first, others⟩ := List.forall_mem_cons.1 steady
    exact ih (s.next first) others

end Since

end Feeding

end Panadapter
