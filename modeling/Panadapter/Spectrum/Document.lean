import Panadapter.Json.Decode
import Panadapter.Spectrum.FftLength

/-! # Transform lengths in documents

A length is written as its count of points. A count that is no whole number is malformed; one that is not on the menu is
refused with the words of the spectrum error.
-/

namespace Panadapter.FftLength

/-- A length in a document. -/
def read : Json.Read FftLength := fun p t => do
  let n ← Json.readNat Json.largest64 p t
  match ofPoints? n with
  | .ok length => return length
  | .error e => .error (.refused e.message)

/-- A length as a value of a document. -/
def toTree (n : FftLength) : Json.Tree := .ofNat n.points

end Panadapter.FftLength
