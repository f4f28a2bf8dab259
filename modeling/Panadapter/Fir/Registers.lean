import Panadapter.DeviceError

/-! # Control registers

A device has 32-bit registers at 32-bit addresses. What is done to it is a list of writes, performed in order until one
of them is refused.

* `RegisterDevice`: reading and writing.
* `RegisterDevice.perform`: a list of writes.
* `Recording`: a device that only remembers what was written.
-/

namespace Panadapter

/-- The address of a register. -/
abbrev Address := UInt32

/-- A write of a word to a register. -/
structure RegisterWrite where
  address : Address
  word : UInt32
  deriving DecidableEq, Repr, Inhabited

/-- A device whose state is a `ρ`. A refused write leaves the state as it is. -/
structure RegisterDevice (ρ : Type) where
  write : RegisterWrite → ρ → Except DeviceError ρ
  read : Address → ρ → Except DeviceError UInt32

namespace RegisterDevice

variable {ρ : Type} (d : RegisterDevice ρ)

/-- Writes in order, up to the first one that is refused, with the state that they leave. -/
def perform : List RegisterWrite → ρ → Except DeviceError Unit × ρ
  | [], state => (.ok (), state)
  | w :: rest, state =>
    match d.write w state with
    | .error e => (.error e, state)
    | .ok state => perform rest state

@[simp] theorem perform_nil (state : ρ) : d.perform [] state = (.ok (), state) := rfl

end RegisterDevice

/-- What was written, the last write first. -/
structure Recording where
  newestFirst : List RegisterWrite
  deriving DecidableEq, Repr

namespace Recording

/-- Nothing written yet. -/
def empty : Recording := ⟨[]⟩

/-- What was written, in order. -/
def writes (r : Recording) : List RegisterWrite := r.newestFirst.reverse

/-- One more write. -/
def push (r : Recording) (w : RegisterWrite) : Recording := ⟨w :: r.newestFirst⟩

@[simp] theorem writes_empty : empty.writes = [] := rfl

@[simp] theorem writes_push (r : Recording) (w : RegisterWrite) : (r.push w).writes = r.writes ++ [w] := by
  simp [writes, push]

/-- The word written last to an address, or zero. -/
def valueAt (r : Recording) (address : Address) : UInt32 :=
  match r.newestFirst.find? fun w => w.address == address with
  | some w => w.word
  | none => 0

/-- A device that remembers writes and reads them back. -/
def device : RegisterDevice Recording where
  write w r := .ok (r.push w)
  read address r := .ok (r.valueAt address)

/-- A device that remembers as many writes as it has room for and refuses the others. -/
def deviceWithRoom (room : Nat) (refusal : DeviceError) : RegisterDevice Recording where
  write w r := if r.newestFirst.length < room then .ok (r.push w) else .error refusal
  read address r := .ok (r.valueAt address)

theorem perform_device (ws : List RegisterWrite) (r : Recording) :
    ∃ after, device.perform ws r = (.ok (), after) ∧ after.writes = r.writes ++ ws := by
  induction ws generalizing r with
  | nil => exact ⟨r, rfl, by simp⟩
  | cons w rest ih =>
    obtain ⟨after, performed, written⟩ := ih (r.push w)
    exact ⟨after, performed, by simp [written]⟩

end Recording

end Panadapter
