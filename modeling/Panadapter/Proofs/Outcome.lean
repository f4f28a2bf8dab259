import Mathlib.Data.List.Forall2

/-!
# Outcomes of computations that may fail

A computation in steps gives a result exactly if all its steps do (`bind_eq_ok_iff`, `mapM_eq_ok_iff`), and else fails
as the first step that fails (`bind_eq_error_iff`, `mapM_eq_error_iff`).
-/

namespace Panadapter.Outcome

variable {ε ε' α β : Type} {x : Except ε α} {f : α → Except ε β} {a : α} {b : β} {e : ε}

theorem error_ne_ok : (.error e : Except ε α) ≠ .ok a := by
  intro same
  cases same

theorem bind_eq_ok_iff : x >>= f = .ok b ↔ ∃ a, x = .ok a ∧ f a = .ok b := by
  cases x with
  | error e => simp [bind, Except.bind]
  | ok a => simp [bind, Except.bind]

theorem bind_eq_error_iff : x >>= f = .error e ↔ x = .error e ∨ ∃ a, x = .ok a ∧ f a = .error e := by
  cases x with
  | error e => simp [bind, Except.bind]
  | ok a => simp [bind, Except.bind]

theorem map_eq_ok_iff {g : α → β} : x.map g = .ok b ↔ ∃ a, x = .ok a ∧ g a = b := by
  cases x <;> simp [Except.map]

theorem map_eq_error_iff {g : α → β} : x.map g = .error e ↔ x = .error e := by
  cases x <;> simp [Except.map]

theorem mapError_eq_ok_iff {g : ε → ε'} : x.mapError g = .ok a ↔ x = .ok a := by
  cases x <;> simp [Except.mapError]

theorem toOption_eq_some_iff : x.toOption = some a ↔ x = .ok a := by
  cases x <;> simp [Except.toOption]

/-- No outcome but a result or an error. -/
theorem exists_error_iff : (∃ e, x = .error e) ↔ ¬∃ a, x = .ok a := by
  cases x <;> simp

theorem mapM_eq_ok_iff {l : List α} {bs : List β} :
    l.mapM f = .ok bs ↔ List.Forall₂ (fun a b => f a = .ok b) l bs := by
  induction l generalizing bs with
  | nil => simp [pure, Except.pure, eq_comm]
  | cons a l ih =>
    simp only [List.mapM_cons, bind_eq_ok_iff, ih, List.forall₂_cons_left_iff, pure, Except.pure, Except.ok.injEq]
    constructor
    · rintro ⟨b, here, rest, later, rfl⟩
      exact ⟨b, rest, here, later, rfl⟩
    · rintro ⟨b, rest, here, later, rfl⟩
      exact ⟨b, here, rest, later, rfl⟩

theorem exists_mapM_eq_ok_iff {l : List α} : (∃ bs, l.mapM f = .ok bs) ↔ ∀ a ∈ l, ∃ b, f a = .ok b := by
  induction l with
  | nil => simp [pure, Except.pure]
  | cons a l ih =>
    simp only [List.mapM_cons, bind_eq_ok_iff, List.forall_mem_cons, ← ih, pure, Except.pure, Except.ok.injEq]
    constructor
    · rintro ⟨_, b, here, bs, later, rfl⟩
      exact ⟨⟨b, here⟩, bs, later⟩
    · rintro ⟨⟨b, here⟩, bs, later⟩
      exact ⟨b :: bs, b, here, bs, later, rfl⟩

theorem mapM_eq_error_iff {l : List α} : l.mapM f = .error e ↔ ∃ before a after, l = before ++ a :: after
    ∧ (∀ b ∈ before, ∃ c, f b = .ok c) ∧ f a = .error e := by
  induction l with
  | nil => simp [pure, Except.pure]
  | cons a l ih =>
    simp only [List.mapM_cons, bind_eq_error_iff, ih, pure, Except.pure, reduceCtorEq, and_false, exists_false, or_false]
    constructor
    · rintro (first | ⟨b, passed, before, c, after, rfl, each, failed⟩)
      · exact ⟨[], a, l, rfl, by simp, first⟩
      · refine ⟨a :: before, c, after, rfl, ?_, failed⟩
        rw [List.forall_mem_cons]
        exact ⟨⟨b, passed⟩, each⟩
    · rintro ⟨before, c, after, parts, each, failed⟩
      cases before with
      | nil =>
        obtain ⟨rfl, rfl⟩ := List.cons.inj parts
        exact .inl failed
      | cons b before =>
        obtain ⟨rfl, rfl⟩ := List.cons.inj parts
        obtain ⟨passed, each⟩ := List.forall_mem_cons.1 each
        exact .inr (passed.imp fun r ok => ⟨ok, before, c, after, rfl, each, failed⟩)

end Panadapter.Outcome
