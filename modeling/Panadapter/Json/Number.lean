import Panadapter.Decimal.Binary
import Panadapter.Json.Tree

/-! # What a numeral of a document is worth

A numeral without point and power is a whole number as far as 64 bits reach. Any other is read in double precision: as
many digits as fit a 64-bit word make a significand, digits left over before the point only raise the power of ten, and
the significand is then multiplied or divided once by a power of ten. The result is the nearest double for short
numerals and at most a few units off for long ones.

* `Number`: a whole number, kept apart by sign, or a double.
* `number?`: the worth of a numeral, none when it exceeds every double.
-/

namespace Panadapter.Json

open Decimal (Numeral valueOfDigits)

/-- The worth of a numeral. `negative n` is `-n` for a positive `n`. -/
inductive Number where
  | natural (n : Nat)
  | negative (n : Nat)
  | real (x : Float)

/-- One more than the largest 64-bit word. -/
def wordBound : Nat := 0x10000000000000000

/-- Digits appended to a significand as long as it fits a word, with the count of those appended and of those left. -/
def appendDigits (significand : Nat) : List Char → Nat × Nat × Nat
  | [] => (significand, 0, 0)
  | d :: rest =>
    let next := significand * 10 + (d.toNat - '0'.toNat)
    if next < wordBound then
      let (s, used, left) := appendDigits next rest
      (s, used + 1, left)
    else (significand, 0, rest.length + 1)

/-- `10 ^ k` in double precision. -/
def powerOfTen (k : Nat) : Float := Float.ofScientific 1 false k

/-- A significand times a power of ten. The power is applied in one step where the format holds it; below that the
significand is divided by the largest power until it does or nothing is left. -/
def scale? (x : Float) (power : Int) : Option Float :=
  if 308 < power then
    if x == 0.0 then some x else none
  else if 0 ≤ power then
    let y := x * powerOfTen power.toNat
    if y.isInf then none else some y
  else if -308 ≤ power then
    some (x / powerOfTen power.natAbs)
  else if x == 0.0 then some x
  else scale? (x / powerOfTen 308) (power + 308)
termination_by power.natAbs

/-- The largest power of ten that is read as a number; beyond it only the sign of the power counts. -/
def largestPower : Nat := 0x7fffffff

/-- The worth of a numeral in double precision. -/
def real? (n : Numeral) : Option Float :=
  let (s, _, spare) := appendDigits 0 n.whole
  let (s, places, _) := appendDigits s n.fraction
  let power := n.power.getD 0
  let magnitude? :=
    if largestPower < power.natAbs then
      if s ≠ 0 ∧ 0 < power then none else some 0.0
    else scale? (UInt64.ofNat s).toFloat (power + spare - places)
  magnitude?.map fun x => if n.negative then -x else x

/-- The worth of a numeral. Zero with a minus sign is no whole number, since it keeps its sign. -/
def number? (n : Numeral) : Option Number :=
  let value := valueOfDigits n.whole
  if n.isWhole && !n.negative && value < wordBound then some (.natural value)
  else if n.isWhole && n.negative && value ≠ 0 && value ≤ 0x8000000000000000 then some (.negative value)
  else (real? n).map .real

namespace Number

/-- The number in double precision. -/
def toFloat : Number → Float
  | natural n => (UInt64.ofNat n).toFloat
  | negative n => -(UInt64.ofNat n).toFloat
  | real x => x

/-- The number in single precision, rounded once from a whole number or from a double. -/
def toFloat32 : Number → Float32
  | natural n => (UInt64.ofNat n).toFloat32
  | negative n => -(UInt64.ofNat n).toFloat32
  | real x => (Decimal.Reading.ofFloat x).toFloat32

end Number

end Panadapter.Json
