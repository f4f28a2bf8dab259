/-! # Binary floating-point numbers, taken apart

A bit pattern of an interchange format is a sign, an exponent field and a fraction field. `Reading` is what such a
pattern means: not a number, an infinity, or exactly `±significand · 2 ^ exponent`. All number texts of this library
are chosen from that exact value, never from another text.

* `Format.double`, `Format.single`: the two formats in use.
* `Format.read`: the meaning of a bit pattern.
* `Reading.ofFloat`, `Reading.ofFloat32`: the meaning of a machine number.
* `Reading.toFloat`, `Reading.toFloat32`: the nearest machine number.
* `Reading.truncate`: the whole part between two bounds.
-/

namespace Panadapter.Decimal

/-- A binary interchange format: the widths of its exponent and fraction fields, in bits. -/
structure Format where
  exponentBits : Nat
  fractionBits : Nat
  deriving DecidableEq, Repr

/-- The 64-bit format. -/
def Format.double : Format := ⟨11, 52⟩

/-- The 32-bit format. -/
def Format.single : Format := ⟨8, 23⟩

/-- What a bit pattern means. A finite number is `significand · 2 ^ exponent` with a sign of its own, so that the two
zeros stay apart; `narrowBelow` holds when the neighbour towards zero is only half as far away as the other one. -/
inductive Reading where
  | nan
  | infinite (negative : Bool)
  | finite (negative : Bool) (significand : Nat) (exponent : Int) (narrowBelow : Bool)
  deriving DecidableEq, Repr

namespace Format

/-- What is taken off the exponent field. -/
def bias (f : Format) : Int := ((1 <<< (f.exponentBits - 1) : Nat) : Int) - 1

/-- The exponent of the last fraction bit of a number with exponent field `field`; field 0 shares that of field 1. -/
def lastPlace (f : Format) (field : Nat) : Int := max field 1 - f.bias - f.fractionBits

/-- The meaning of a bit pattern. -/
def read (f : Format) (bits : Nat) : Reading :=
  let fraction := bits % 1 <<< f.fractionBits
  let field := bits >>> f.fractionBits % 1 <<< f.exponentBits
  let negative := bits >>> (f.fractionBits + f.exponentBits) % 2 == 1
  if field + 1 = 1 <<< f.exponentBits then
    if fraction = 0 then .infinite negative else .nan
  else if field = 0 then
    .finite negative fraction (f.lastPlace field) false
  else
    .finite negative (1 <<< f.fractionBits + fraction) (f.lastPlace field) (fraction == 0 && field != 1)

end Format

namespace Reading

/-- The meaning of a 64-bit number. -/
def ofFloat (x : Float) : Reading := Format.double.read x.toBits.toNat

/-- The meaning of a 32-bit number. -/
def ofFloat32 (x : Float32) : Reading := Format.single.read x.toBits.toNat

/-- The 64-bit number nearest to a reading, a half to the even one. A power of two below one is a decimal as well, with
as many places as the power. -/
def toFloat : Reading → Float
  | nan => 0.0 / 0.0
  | infinite negative => if negative then -1.0 / 0.0 else 1.0 / 0.0
  | finite negative m e _ =>
    let magnitude := Float.ofScientific (m <<< e.toNat * Nat.pow 5 (-e).toNat) true (-e).toNat
    if negative then -magnitude else magnitude

/-- The 32-bit number nearest to a reading, a half to the even one. -/
def toFloat32 : Reading → Float32
  | nan => 0.0 / 0.0
  | infinite negative => if negative then -1.0 / 0.0 else 1.0 / 0.0
  | finite negative m e _ =>
    let magnitude : Float32 := Float32.ofScientific (m <<< e.toNat * Nat.pow 5 (-e).toNat) true (-e).toNat
    if negative then -magnitude else magnitude

/-- The whole part, towards zero, cut to the numbers from `low` to `high`; zero for what is no number. -/
def truncate (low high : Int) : Reading → Int
  | nan => 0
  | infinite negative => if negative then low else high
  | finite negative m e _ =>
    let whole := m <<< e.toNat >>> (-e).toNat
    max low (min high (if negative then -(whole : Int) else whole))

end Reading

example : (Reading.finite true 7 (-1) false).truncate (-100) 100 = -3 := by decide +kernel
example : Format.double.read 0x3ff0000000000000 = .finite false (2 ^ 52) (-52) true := by decide +kernel
example : Format.single.read 0x80000000 = .finite true 0 (-149) false := by decide +kernel
example : Format.single.read 0x7f800001 = .nan := by decide +kernel

end Panadapter.Decimal
