import Panadapter.Json.Decode
import Panadapter.Palette.Basic

/-! # Palettes in documents

A palette is written as its name, and here the case of the letters counts.
-/

namespace Panadapter.Palette

/-- A palette in a document. -/
def read : Json.Read Palette := Json.readChoice named

/-- A palette as a value of a document. -/
def toTree (p : Palette) : Json.Tree := .string p.name

end Panadapter.Palette
