import Panadapter.Decimal.Layout
import Panadapter.Json.Printer

/-! # Values into documents

Numbers are written with the fewest digits that read back in their own format; what is no number or not finite is null.
-/

namespace Panadapter.Json.Tree

open Decimal (Layout Format Reading)

/-- A number of a format, or null. -/
def ofReading (f : Format) (r : Reading) : Tree := ((Layout.document f).numeral? r).elim .null .number

/-- A 64-bit number as a value. -/
def ofFloat (x : Float) : Tree := ofReading .double (.ofFloat x)

/-- A 32-bit number as a value. -/
def ofFloat32 (x : Float32) : Tree := ofReading .single (.ofFloat32 x)

/-- A value that may be missing. -/
def ofOption {α : Type} (f : α → Tree) : Option α → Tree
  | none => .null
  | some a => f a

end Panadapter.Json.Tree
