/-! # Palettes by name

A palette turns a magnitude into a colour. Here are the palettes there are, and how their names are read.
-/

namespace Panadapter

/-- The palettes on offer. -/
inductive Palette where
  | grayscale
  | rainbow
  | viridis
  | plasma
  | magma
  deriving DecidableEq, Repr, Inhabited

namespace Palette

/-- All palettes, in the order in which they are listed to the user. -/
def all : List Palette := [grayscale, rainbow, viridis, plasma, magma]

/-- The name of a palette. -/
def name : Palette → String
  | grayscale => "grayscale"
  | rainbow => "rainbow"
  | viridis => "viridis"
  | plasma => "plasma"
  | magma => "magma"

/-- Every palette with its name. -/
def named : List (String × Palette) := all.map fun p => (p.name, p)

/-- Two texts that differ at most in the case of letters `a` to `z`. -/
def sameName (a b : String) : Bool := a.toList.map Char.toLower == b.toList.map Char.toLower

/-- The palette of a name typed by a user, in letters of either case. -/
def ofName? (text : String) : Except String Palette :=
  match all.find? fun p => sameName p.name text with
  | some p => .ok p
  | none =>
    .error ("unknown palette '" ++ text ++ "' (expected one of: " ++ String.intercalate ", " (all.map name) ++ ")")

end Palette

end Panadapter
