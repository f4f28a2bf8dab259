import Panadapter.Decimal.Numeral
import Panadapter.Decimal.Shortest

/-! # Numerals of the fewest digits

How the shortest digits of a number are laid out: with the point in place, or as one leading digit with a power of ten.
A `Layout` is the whole decision, and there are two of them.

* `Layout.plain`: messages. The point is always in place, a whole number has no point.
* `Layout.document`: documents. Whole numbers end in `.0`, and far from one the power of ten is written.
-/

namespace Panadapter.Decimal

/-- Bounds on where the point stands, as a count of digits before it; the count is not positive below one tenth. -/
structure Window where
  above : Int
  upTo : Int
  deriving DecidableEq, Repr

/-- How a finite number is written. Outside `inPlace` the power of ten is written; `wholeFraction` are the fraction
digits of a whole number whose point is in place. -/
structure Layout where
  tie : Tie
  inPlace : Option Window
  wholeFraction : List Char
  deriving DecidableEq, Repr

namespace Layout

/-- The point in place, whatever the size of the number. Halfway digits go up. -/
def plain : Layout := ⟨.up, none, []⟩

/-- The point is in place up to sixteen digits before it and up to four zeros after it; numbers of the 32-bit format
have thirteen and five. -/
def document (f : Format) : Layout :=
  ⟨.toEven, some (if f = Format.single then ⟨-6, 13⟩ else ⟨-5, 16⟩), ['0']⟩

/-- Digits with the point after the first `point` of them, padded with zeros on the side that needs them. -/
def pointed (l : Layout) (negative : Bool) (ds : List Char) (point : Int) : Numeral :=
  if point ≤ 0 then
    ⟨negative, ['0'], List.replicate (-point).toNat '0' ++ ds, none⟩
  else if ds.length ≤ point.toNat then
    ⟨negative, ds ++ List.replicate (point.toNat - ds.length) '0', l.wholeFraction, none⟩
  else
    ⟨negative, ds.take point.toNat, ds.drop point.toNat, none⟩

/-- One digit before the point, and the power of ten that makes up for it. -/
def powered (negative : Bool) (ds : List Char) (point : Int) : Numeral :=
  ⟨negative, ds.take 1, ds.drop 1, some (point - 1)⟩

/-- The numeral of a decimal that is not zero. -/
def arrange (l : Layout) (negative : Bool) (s : Scaled) : Numeral :=
  let ds := digits s.digits
  let point := ds.length + s.exponent
  match l.inPlace with
  | none => l.pointed negative ds point
  | some w => if w.above < point ∧ point ≤ w.upTo then l.pointed negative ds point else powered negative ds point

/-- The numeral of a finite number: its sign and its shortest digits; zero has the digit `0`. -/
def numeral (l : Layout) (negative : Bool) (significand : Nat) (exponent : Int) (narrowBelow : Bool) : Numeral :=
  if significand = 0 then ⟨negative, ['0'], l.wholeFraction, none⟩
  else l.arrange negative ((Interval.around significand exponent narrowBelow).shortest l.tie)

/-- The numeral of a number, if it is finite. -/
def numeral? (l : Layout) : Reading → Option Numeral
  | .finite negative m e narrow => some (l.numeral negative m e narrow)
  | _ => none

end Layout

/-- The text of a number in a message; what is no number or not finite has a word of its own. -/
def Reading.text : Reading → String
  | .nan => "NaN"
  | .infinite negative => if negative then "-inf" else "inf"
  | .finite negative m e narrow => String.ofList (Layout.plain.numeral negative m e narrow).text

/-- The text of a 64-bit number in a message. -/
def textOfFloat (x : Float) : String := (Reading.ofFloat x).text

/-- The text of a 32-bit number in a message. -/
def textOfFloat32 (x : Float32) : String := (Reading.ofFloat32 x).text

example : (Layout.plain.arrange false ⟨15, -3⟩).text = "0.015".toList := by decide +kernel
example : (Layout.plain.arrange true ⟨15, 3⟩).text = "-15000".toList := by decide +kernel
example : ((Layout.document .double).arrange false ⟨15, 3⟩).text = "15000.0".toList := by decide +kernel
example : ((Layout.document .double).arrange false ⟨1, 16⟩).text = "1e+16".toList := by decide +kernel
example : ((Layout.document .single).arrange false ⟨25, -8⟩).text = "2.5e-7".toList := by decide +kernel

end Panadapter.Decimal
