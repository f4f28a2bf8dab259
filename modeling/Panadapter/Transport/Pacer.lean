import Panadapter.Decimal.Fixed

/-! # Pacing

A source that is not real hardware hands out its buffers at the rate at which hardware would complete them. Time is
counted in nanoseconds on a clock that the caller reads.
-/

namespace Panadapter

/-- The time between two buffers, the time of the first one, and the count of buffers released so far. -/
structure Pacer where
  period : Nat
  started : Option Nat
  released : Nat
  deriving DecidableEq, Repr

namespace Pacer

/-- No time between buffers. -/
def unpaced : Pacer := ⟨0, none, 0⟩

/-- More seconds than a duration can hold. -/
def tooLong : Nat := 0x10000000000000000

/-- A count of seconds in nanoseconds, to the nearest; zero for what no duration can hold. -/
def nanoseconds (seconds : Float) : Nat :=
  match Decimal.Reading.ofFloat seconds with
  | .finite false m e _ =>
    let n := Decimal.roundHalfEven ((m * 1000000000) <<< e.toNat) (1 <<< (-e).toNat)
    if n < tooLong * 1000000000 then n else 0
  | _ => 0

/-- Buffers of so many samples at a rate. Without a finite and positive rate there is no pacing. -/
def ofRate (samplesPerBuffer : Nat) (rate : Float) : Pacer :=
  if rate.isFinite && rate > 0 then ⟨nanoseconds (Float.ofNat samplesPerBuffer / rate), none, 0⟩ else unpaced

/-- The pacer as it is when a transfer starts. -/
def restart (p : Pacer) (now : Nat) : Pacer := { p with started := some now, released := 0 }

/-- Whether a buffer is due, which counts as released then. The first one is due at once. -/
def release (p : Pacer) (now : Nat) : Bool × Pacer :=
  let started := p.started.getD now
  if started + p.period * p.released ≤ now then
    (true, { p with started := some started, released := p.released + 1 })
  else (false, { p with started := some started })

/-- Without pacing every buffer is due, as long as the clock does not run backwards. -/
theorem release_of_period_eq_zero {p : Pacer} {now : Nat} (h : p.period = 0) (before : ∀ s ∈ p.started, s ≤ now) :
    (p.release now).1 = true := by
  have : p.started.getD now ≤ now := by
    cases hs : p.started with
    | none => simp
    | some s => simpa using before s (by simp [hs])
  simp [release, h, this]

end Pacer

end Panadapter
