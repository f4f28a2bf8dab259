/-! # Transform lengths

A transform has a power of two from 128 to 1048576 as its length.
-/

namespace Panadapter

/-- What is wrong with the samples handed to a spectrum. -/
inductive SpectrumError where
  | unsupportedLength (n : Nat)
  | lengthMismatch (i q : Nat)
  deriving DecidableEq, Repr

/-- The wording of a spectrum error. -/
def SpectrumError.message : SpectrumError → String
  | unsupportedLength n => "unsupported FFT length " ++ toString n ++ " (power of two from 128 to 1048576)"
  | lengthMismatch i q =>
    "I/Q length mismatch: " ++ toString i ++ " I samples, " ++ toString q ++ " Q samples"

/-- A length `2 ^ log` of the menu. -/
structure FftLength where
  log : Nat
  seven_le : 7 ≤ log
  le_twenty : log ≤ 20
  deriving DecidableEq, Repr

namespace FftLength

/-- The count of points. -/
def points (n : FftLength) : Nat := 1 <<< n.log

/-- The usual length. -/
def usual : FftLength := ⟨10, by decide, by decide⟩

instance : Inhabited FftLength := ⟨usual⟩

/-- The length of so many points, if it is on the menu. -/
def ofPoints? (n : Nat) : Except SpectrumError FftLength :=
  if h : 7 ≤ n.log2 ∧ n.log2 ≤ 20 then
    if 1 <<< n.log2 = n then .ok ⟨n.log2, h.1, h.2⟩ else .error (.unsupportedLength n)
  else .error (.unsupportedLength n)

/-- All lengths, shortest first. -/
def menu : List FftLength :=
  (List.range 14).filterMap fun k => if h : k + 7 ≤ 20 then some ⟨k + 7, by omega, h⟩ else none

theorem points_injective {m n : FftLength} (h : m.points = n.points) : m = n := by
  have := (Nat.pow_right_inj (by decide : 1 < 2)).1 (by simpa [points, Nat.one_shiftLeft] using h)
  cases m; cases n; simp_all

/-- Every length is read from its count of points. -/
theorem ofPoints?_points (n : FftLength) : ofPoints? n.points = .ok n := by
  cases n with
  | mk log lo hi => simp [ofPoints?, points, Nat.one_shiftLeft, lo, hi]

theorem points_pos (n : FftLength) : 0 < n.points := by
  rw [points, Nat.one_shiftLeft]
  exact Nat.two_pow_pos _

/-- A length that is read has the count of points it was read from. -/
theorem points_of_ofPoints? {k : Nat} {n : FftLength} (h : ofPoints? k = .ok n) : n.points = k := by
  unfold ofPoints? at h
  split at h
  · split at h
    · cases h; assumption
    · cases h
  · cases h

/-- A count that is no length's is refused. -/
theorem ofPoints?_of_unlisted {k : Nat} (unlisted : ∀ n : FftLength, n.points ≠ k) :
    ofPoints? k = .error (.unsupportedLength k) := by
  unfold ofPoints?
  split
  · rename_i bounds
    exact if_neg (unlisted ⟨k.log2, bounds.1, bounds.2⟩)
  · rfl

example : menu.map points =
    [128, 256, 512, 1024, 2048, 4096, 8192, 16384, 32768, 65536, 131072, 262144, 524288, 1048576] := by decide

end FftLength

end Panadapter
