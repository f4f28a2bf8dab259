import Panadapter.Decimal.Binary

/-! # The fewest digits that read back

A binary number stands for every real that rounds to it: an interval whose ends are half way to its two neighbours, and
belong to it when the significand is even. The shortest decimal of the number is the first hit on ever finer decimal
grids: of the two grid points around the number the nearer one that lies in the interval. Everything is exact
arithmetic on `Nat`.

* `Interval`: the number and the two ends over one common denominator.
* `Interval.shortest`: the digits and the power of ten.
-/

namespace Panadapter.Decimal

/-- `digits · 10 ^ exponent`. -/
structure Scaled where
  digits : Nat
  exponent : Int
  deriving DecidableEq, Repr

/-- Which of two grid points at the same distance is taken. -/
inductive Tie where
  | up
  | toEven
  deriving DecidableEq, Repr

/-- The reals that round to one number: `low`, `value` and `high` over the denominator `den`. -/
structure Interval where
  low : Nat
  value : Nat
  high : Nat
  den : Nat
  closed : Bool
  deriving DecidableEq, Repr

namespace Interval

/-- The interval of `significand · 2 ^ exponent`. A quarter of the last place is the unit, so that both ends are whole
whether or not the lower neighbour is nearer. -/
def around (significand : Nat) (exponent : Int) (narrowBelow : Bool) : Interval :=
  let scale := 1 <<< (exponent - 2).toNat
  { low := (4 * significand - if narrowBelow then 1 else 2) * scale
    value := 4 * significand * scale
    high := (4 * significand + 2) * scale
    den := 1 <<< (2 - exponent).toNat
    closed := significand % 2 == 0 }

/-- Whether the real `num / den` lies in the interval, for the interval's own denominator. -/
def contains (i : Interval) (num : Nat) : Bool :=
  if i.closed then decide (i.low ≤ num) && decide (num ≤ i.high) else decide (i.low < num) && decide (num < i.high)

/-- The same interval seen on the grid of multiples of `10 ^ grid`: one grid step is the denominator. -/
def onGrid (i : Interval) (grid : Int) : Interval :=
  let up := Nat.pow 10 (-grid).toNat
  { i with low := i.low * up, value := i.value * up, high := i.high * up, den := i.den * Nat.pow 10 grid.toNat }

/-- The grid point taken, if one of the two around the value lies in the interval. -/
def hit? (i : Interval) (tie : Tie) : Option Nat :=
  let below := i.value / i.den
  let rest := i.value % i.den
  match i.contains (below * i.den), i.contains ((below + 1) * i.den) with
  | false, false => none
  | true, false => some below
  | false, true => some (below + 1)
  | true, true =>
    if 2 * rest < i.den then some below
    else if i.den < 2 * rest then some (below + 1)
    else match tie with
      | .up => some (below + 1)
      | .toEven => some (if below % 2 = 0 then below else below + 1)

/-- A power of ten above the value: the value is below `2 ^ (log2 value + 1 - log2 den)`, and `log10 2 < 0.30103`. -/
def coarsest (i : Interval) : Int :=
  ((i.value.log2 : Int) + 1 - i.den.log2) * 30103 / 100000 + 2

/-- The shortest decimal in the interval, and of those the nearest. Seventeen digits always suffice, and `coarsest` is
at most three places too coarse. -/
def shortest (i : Interval) (tie : Tie) : Scaled :=
  let top := i.coarsest
  let hits := (List.range 24).findSome? fun (k : Nat) =>
    ((i.onGrid (top - k)).hit? tie).map fun digits => Scaled.mk digits (top - k)
  hits.getD ⟨0, 0⟩

end Interval

example : (Interval.around 0x10000000000000 (-52) true).shortest .toEven = ⟨1, 0⟩ := by decide +kernel
example : (Interval.around 1 (-1074) false).shortest .up = ⟨5, -324⟩ := by decide +kernel
example : (Interval.around 0x1999999999999a (-56) false).shortest .toEven = ⟨1, -1⟩ := by decide +kernel

end Panadapter.Decimal
