import Panadapter.Decimal.Layout

/-! # Number texts with a fixed count of places

The exact value is rounded once, to a whole number of units of the last place, and a half goes to the even neighbour.
The sign of the number is kept, also where nothing but zeros is left.
-/

namespace Panadapter.Decimal

/-- `num / den` rounded to the nearest whole number, a half to the even one. -/
def roundHalfEven (num den : Nat) : Nat :=
  let below := num / den
  let rest := num % den
  if 2 * rest < den then below
  else if den < 2 * rest then below + 1
  else if below % 2 = 0 then below else below + 1

/-- Rounding moves a quotient by half a unit at most. -/
theorem roundHalfEven_near (num den : Nat) (h : 0 < den) :
    2 * num ≤ 2 * den * roundHalfEven num den + den ∧ 2 * den * roundHalfEven num den ≤ 2 * num + den := by
  have split : den * (num / den) + num % den = num := Nat.div_add_mod num den
  have small : num % den < den := Nat.mod_lt num h
  have twice : 2 * den * (num / den) = 2 * (den * (num / den)) := Nat.mul_assoc ..
  have next : 2 * den * (num / den + 1) = 2 * (den * (num / den)) + 2 * den := by
    rw [Nat.mul_add, Nat.mul_one, twice]
  unfold roundHalfEven
  simp only
  split
  · omega
  · split
    · omega
    · split <;> omega

/-- The units of the last of `places` places in `significand · 2 ^ exponent`. -/
def unitsAt (places : Nat) (significand : Nat) (exponent : Int) : Nat :=
  roundHalfEven ((significand * Nat.pow 10 places) <<< exponent.toNat) (1 <<< (-exponent).toNat)

/-- A count of units with the point before its last `places` digits. -/
def placed (places units : Nat) : List Char :=
  let ds := digits (units % Nat.pow 10 places)
  digits (units / Nat.pow 10 places) ++ '.' :: (List.replicate (places - ds.length) '0' ++ ds)

/-- The text of a number with `places` places, at least one. -/
def fixed (places : Nat) : Reading → String
  | .nan => "NaN"
  | .infinite negative => if negative then "-inf" else "inf"
  | .finite negative m e _ =>
    let magnitude := placed places (unitsAt places m e)
    String.ofList (if negative then '-' :: magnitude else magnitude)

example : fixed 1 (.finite false 1 (-2) false) = "0.2" := by decide +kernel
example : fixed 1 (.finite true 3 (-2) false) = "-0.8" := by decide +kernel
example : fixed 6 (.finite true 0 0 false) = "-0.000000" := by decide +kernel

end Panadapter.Decimal
