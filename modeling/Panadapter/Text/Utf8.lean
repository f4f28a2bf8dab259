/-! # Text in UTF-8

Bytes as text, if they are well-formed UTF-8, and their lines.
-/

namespace Panadapter.Text

/-- The text of bytes. -/
def ofBytes? (bytes : List UInt8) : Option String := String.fromUTF8? bytes.toByteArray

/-- The byte that ends a line. -/
def lineFeed : UInt8 := 10

/-- The lines of bytes, without the line feeds that end them. The last line need not have one. -/
def lines (bytes : List UInt8) : List (List UInt8) :=
  let pieces := bytes.splitOn lineFeed
  if pieces.getLast? = some [] then pieces.dropLast else pieces

example : lines [] = [] := by decide
example : lines [97, 10, 10, 98] = [[97], [], [98]] := by decide
example : lines [97, 10] = [[97]] := by decide

end Panadapter.Text
