import Panadapter.Decimal.Scan

/-! # Values on command lines

How the texts behind options and in positional arguments are read.
-/

namespace Panadapter.CommandLine

/-- A path, which is not empty. -/
def readPath (text : String) : Option String := if text.isEmpty then none else some text

/-- Any text. -/
def readText (text : String) : Option String := some text

/-- The largest whole number that fits 64 bits. -/
def largestNat : Nat := 0xffffffffffffffff

/-- The largest whole number that fits 64 bits with a sign. -/
def largestInt : Nat := 0x7fffffffffffffff

/-- The largest whole number that fits 32 bits. -/
def largestWord : Nat := 0xffffffff

/-- A whole number without a sign, or with `+`. -/
def readNat (text : String) : Option Nat := (Decimal.readNat 10 largestNat text.toList).toOption

/-- A whole number with or without a sign. -/
def readInt (text : String) : Option Int := (Decimal.readInt 10 largestInt text.toList).toOption

/-- A whole number that is a 32-bit word. Zero may have either sign. -/
def readWord (text : String) : Option Nat :=
  (readInt text).bind fun n => if 0 ≤ n ∧ n ≤ largestWord then some n.toNat else none

/-- A decimal. -/
def readFloat (text : String) : Option Float := Decimal.readFloat? text.toList

example : readWord "+7" = some 7 := by decide +kernel
example : readWord "-0" = some 0 := by decide +kernel
example : readWord "-1" = none := by decide +kernel
example : readNat "-0" = none := by decide +kernel

end Panadapter.CommandLine
