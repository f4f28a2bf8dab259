import Panadapter.Decimal.Scan
import Panadapter.Fir.Registers

/-! # Addresses as text

An address is read from hexadecimal digits behind `0x`, or from decimal digits, and is written in eight hexadecimal
digits.
-/

namespace Panadapter

/-- The digits behind a `0x`, with their radix. -/
def addressDigits : List Char → Nat × List Char
  | '0' :: 'x' :: rest => (16, rest)
  | '0' :: 'X' :: rest => (16, rest)
  | cs => (10, cs)

/-- The address that a text names, or what is wrong with it. -/
def parseAddress (text : String) : Except String Address :=
  let (radix, cs) := addressDigits text.toList
  match Decimal.readNat radix 0xffffffff cs with
  | .ok n => .ok (UInt32.ofNat n)
  | .error e => .error ("invalid address '" ++ text ++ "': " ++ e.message)

/-- A word in eight hexadecimal digits. -/
def hexWord (w : UInt32) : List Char :=
  let ds := Nat.toDigits 16 w.toNat
  '0' :: 'x' :: (List.replicate (8 - ds.length) '0' ++ ds)

/-- A write as it is shown. -/
def RegisterWrite.shown (w : RegisterWrite) : String :=
  String.ofList (hexWord w.address ++ " <- ".toList ++ hexWord w.word)

end Panadapter
