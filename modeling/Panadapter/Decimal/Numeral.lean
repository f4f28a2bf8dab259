/-! # Decimal numerals

A numeral as it stands in a text: sign, digits before and after the point, and a power of ten. Two numerals of the same
value can differ, as `1.0` and `1e0` do; what a text says about a number beyond its value is kept.
-/

namespace Panadapter.Decimal

/-- The decimal digits of a number, without leading zeros; zero has one digit. -/
def digits (n : Nat) : List Char := Nat.toDigits 10 n

/-- The value of decimal digits. -/
def valueOfDigits (ds : List Char) : Nat := ds.foldl (fun v d => v * 10 + (d.toNat - '0'.toNat)) 0

/-- The digits a text starts with, and the rest of it. -/
def spanDigits (cs : List Char) : List Char × List Char := cs.span Char.isDigit

/-- A numeral, part by part. No fraction digits means no point, and no power means no exponent part. -/
structure Numeral where
  negative : Bool
  whole : List Char
  fraction : List Char
  power : Option Int
  deriving DecidableEq, Repr

namespace Numeral

/-- The numeral of a whole number. -/
def ofNat (n : Nat) : Numeral := ⟨false, digits n, [], none⟩

/-- Whether neither a point nor a power of ten is written. -/
def isWhole (n : Numeral) : Bool := n.fraction.isEmpty && n.power.isNone

/-- The exponent part: the power of ten always carries its sign. -/
def powerText : Option Int → List Char
  | none => []
  | some p => 'e' :: (if p < 0 then '-' else '+') :: digits p.natAbs

/-- The point and the digits after it. -/
def fractionText : List Char → List Char
  | [] => []
  | ds => '.' :: ds

/-- The numeral as text. -/
def text (n : Numeral) : List Char :=
  (if n.negative then ['-'] else []) ++ n.whole ++ fractionText n.fraction ++ powerText n.power

example : (ofNat 120).text = "120".toList := by decide +kernel
example : (⟨true, ['2'], ['5'], some (-7)⟩ : Numeral).text = "-2.5e-7".toList := by decide +kernel

end Numeral

end Panadapter.Decimal
