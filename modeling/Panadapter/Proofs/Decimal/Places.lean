import Mathlib.Algebra.Order.Ring.Abs
import Mathlib.Data.List.Induction
import Mathlib.Tactic.FieldSimp
import Mathlib.Tactic.Linarith
import Panadapter.Decimal.Fixed
import Panadapter.Proofs.Json.Numerals
import Panadapter.Proofs.Transport.Decoding

/-!
# Numbers with a fixed count of places

A number is rounded to whole units of its last place, and these are written with a point in front of the places.

* What is written are the digits of the units (`placed_eq`).
* The units are no further from the number than half a unit (`unitsAt_near`).
-/

namespace Panadapter.Decimal

theorem valueOfDigits_concat (ds : List Char) (c : Char) :
    valueOfDigits (ds ++ [c]) = valueOfDigits ds * 10 + (c.toNat - '0'.toNat) := by
  rw [valueOfDigits, List.foldl_append]
  rfl

theorem valueOfDigits_append (ds es : List Char) :
    valueOfDigits (ds ++ es) = valueOfDigits ds * 10 ^ es.length + valueOfDigits es := by
  induction es using List.reverseRecOn with
  | nil => simp [valueOfDigits]
  | append_singleton es c ih =>
    rw [← List.append_assoc, valueOfDigits_concat, valueOfDigits_concat, ih, List.length_append,
      List.length_singleton, Nat.pow_succ]
    ring

theorem valueOfDigits_zeros (k : ℕ) : valueOfDigits (List.replicate k '0') = 0 := by
  induction k with
  | zero => rfl
  | succ k ih =>
    rw [List.replicate_succ', valueOfDigits_concat, ih]
    rfl

/-- Units with a point in front of their last places: around it stand the digits of the units. -/
theorem placed_eq {places : ℕ} (pos : 0 < places) (units : ℕ) : ∃ fraction,
    placed places units = digits (units / 10 ^ places) ++ '.' :: fraction ∧ fraction.length = places
      ∧ (∀ c ∈ fraction, c.isDigit = true) ∧ valueOfDigits (digits (units / 10 ^ places) ++ fraction) = units := by
  have few : (digits (units % 10 ^ places)).length ≤ places :=
    (Nat.length_toDigits_le_iff (by decide) pos).2 (Nat.mod_lt _ (Nat.pow_pos (by decide)))
  have length : (List.replicate (places - (digits (units % 10 ^ places)).length) '0'
      ++ digits (units % 10 ^ places)).length = places := by
    rw [List.length_append, List.length_replicate]
    omega
  refine ⟨List.replicate (places - (digits (units % 10 ^ places)).length) '0' ++ digits (units % 10 ^ places), rfl,
    length, ?_, ?_⟩
  · intro c mem
    rcases List.mem_append.1 mem with zero | digit
    · rw [List.eq_of_mem_replicate zero]
      rfl
    · exact isDigit_of_mem_digits digit
  · have value : valueOfDigits (List.replicate (places - (digits (units % 10 ^ places)).length) '0'
        ++ digits (units % 10 ^ places)) = units % 10 ^ places := by
      rw [valueOfDigits_append, valueOfDigits_zeros, Nat.zero_mul, Nat.zero_add, valueOfDigits_digits]
    rw [valueOfDigits_append, length, valueOfDigits_digits, value]
    exact Nat.div_add_mod' units (10 ^ places)

/-- Rounding to places moves a number by half a unit of the last one at most. -/
theorem unitsAt_near (places m : ℕ) (e : ℤ) :
    |(unitsAt places m e : ℚ) / 10 ^ places - m * 2 ^ e| ≤ 1 / (2 * 10 ^ places) := by
  have den : (0 : ℚ) < (2 ^ (-e).toNat : ℕ) := Nat.cast_pos.2 (Nat.two_pow_pos _)
  have unit : (0 : ℚ) < 10 ^ places := pow_pos (by norm_num) places
  have value : ((m * 10 ^ places) <<< e.toNat : ℕ) = (m : ℚ) * 2 ^ e * 10 ^ places * (2 ^ (-e).toNat : ℕ) := by
    rw [mul_two_zpow_eq_div, Nat.shiftLeft_eq]
    field_simp
    push_cast
    ring
  obtain ⟨above, below⟩ := roundHalfEven_near ((m * 10 ^ places) <<< e.toNat) (2 ^ (-e).toNat) (Nat.two_pow_pos _)
  have units : unitsAt places m e = roundHalfEven ((m * 10 ^ places) <<< e.toNat) (2 ^ (-e).toNat) := by
    rw [unitsAt, Nat.one_shiftLeft]
    rfl
  rw [← units, ← Nat.cast_le (α := ℚ)] at above below
  simp only [Nat.cast_add, Nat.cast_mul, Nat.cast_ofNat, value] at above below
  have gap : |(unitsAt places m e : ℚ) - m * 2 ^ e * 10 ^ places| ≤ 1 / 2 := by
    have low : (m : ℚ) * 2 ^ e * 10 ^ places ≤ unitsAt places m e + 1 / 2 :=
      le_of_mul_le_mul_right (by linarith) den
    have high : (unitsAt places m e : ℚ) ≤ m * 2 ^ e * 10 ^ places + 1 / 2 :=
      le_of_mul_le_mul_right (by linarith) den
    exact abs_le.2 ⟨by linarith, by linarith⟩
  calc |(unitsAt places m e : ℚ) / 10 ^ places - m * 2 ^ e|
    _ = |(unitsAt places m e : ℚ) - m * 2 ^ e * 10 ^ places| / 10 ^ places := by
      rw [← abs_of_pos unit, ← abs_div, abs_of_pos unit, sub_div, mul_div_cancel_right₀ _ unit.ne']
    _ ≤ 1 / 2 / 10 ^ places := div_le_div_of_nonneg_right gap unit.le
    _ = 1 / (2 * 10 ^ places) := div_div _ _ _

end Panadapter.Decimal
