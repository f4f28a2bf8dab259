import Panadapter.Decimal.Numeral

/-! # Reading numbers

Whole numbers in a radix with a largest value, and decimals with a point and a power of ten.

* `readNat`: an optional `+` and digits, with the first fault met from the left.
* `readInt`: the same with either sign.
* `readFloat?`: a decimal, correctly rounded, or the name of an infinity or of what is no number.
-/

namespace Panadapter.Decimal

/-- Why a text is no whole number of the wanted range. -/
inductive IntegerFault where
  | empty
  | invalidDigit
  | tooLarge
  | tooSmall
  deriving DecidableEq, Repr

/-- The wording of a fault. -/
def IntegerFault.message : IntegerFault → String
  | empty => "cannot parse integer from empty string"
  | invalidDigit => "invalid digit found in string"
  | tooLarge => "number too large to fit in target type"
  | tooSmall => "number too small to fit in target type"

/-- The value of a digit below the radix; letters of either case count from ten. -/
def digitValue? (radix : Nat) (c : Char) : Option Nat :=
  let v :=
    if '0' ≤ c ∧ c ≤ '9' then some (c.toNat - '0'.toNat)
    else if 'a' ≤ c ∧ c ≤ 'z' then some (c.toNat - 'a'.toNat + 10)
    else if 'A' ≤ c ∧ c ≤ 'Z' then some (c.toNat - 'A'.toNat + 10)
    else none
  v.filter (· < radix)

/-- Digits after what was read so far, as far as `limit`: a bad digit counts before the size it would have given. -/
def readDigits (radix limit : Nat) (overflow : IntegerFault) : Nat → List Char → Except IntegerFault Nat
  | value, [] => .ok value
  | value, c :: rest =>
    match digitValue? radix c with
    | none => .error .invalidDigit
    | some d =>
      if value * radix + d ≤ limit then readDigits radix limit overflow (value * radix + d) rest
      else .error overflow

/-- A whole number up to `limit`: digits after an optional `+`. -/
def readNat (radix limit : Nat) : List Char → Except IntegerFault Nat
  | [] => .error .empty
  | ['+'] => .error .invalidDigit
  | '+' :: rest => readDigits radix limit .tooLarge 0 rest
  | cs => readDigits radix limit .tooLarge 0 cs

/-- A whole number from `-limit - 1` to `limit`: digits after an optional sign. -/
def readInt (radix limit : Nat) : List Char → Except IntegerFault Int
  | ['-'] => .error .invalidDigit
  | '-' :: rest => (readDigits radix (limit + 1) .tooSmall 0 rest).map fun n => -(n : Int)
  | cs => (readNat radix limit cs).map Int.ofNat

/-- `digits · 10 ^ exponent`, correctly rounded. Far outside the range of the format the answer is known before the power
of ten is computed. -/
def nearest (significand : Nat) (exponent : Int) : Float :=
  let point := (Nat.log2 significand : Int) * 30103 / 100000 + exponent
  if significand = 0 ∨ point < -400 then 0.0
  else if 400 < point then 1.0 / 0.0
  else Float.ofScientific significand (exponent < 0) exponent.natAbs

/-- The power of ten after an `e`: digits after an optional sign, and nothing else. -/
def readPower? : List Char → Option Int
  | '-' :: rest => (digitsOnly? rest).map fun n => -(n : Int)
  | '+' :: rest => (digitsOnly? rest).map Int.ofNat
  | cs => (digitsOnly? cs).map Int.ofNat
where
  digitsOnly? (cs : List Char) : Option Nat :=
    if !cs.isEmpty && cs.all Char.isDigit then some (valueOfDigits cs) else none

/-- A decimal without sign: digits with or without a point, at least one of them, and an optional power of ten. -/
def readMagnitude? (cs : List Char) : Option Float :=
  let (whole, afterWhole) := spanDigits cs
  let (fraction, afterFraction) := match afterWhole with
    | '.' :: rest => spanDigits rest
    | rest => ([], rest)
  if whole.isEmpty && fraction.isEmpty then none
  else
    let power? := match afterFraction with
      | [] => some 0
      | c :: rest => if c = 'e' ∨ c = 'E' then readPower? rest else none
    power?.map fun power => nearest (valueOfDigits (whole ++ fraction)) (power - fraction.length)

/-- A decimal without sign, or one of the words for what is not finite, in letters of either case. -/
def readUnsigned? (cs : List Char) : Option Float :=
  let word := cs.map Char.toLower
  if word = "inf".toList ∨ word = "infinity".toList then some (1.0 / 0.0)
  else if word = "nan".toList then some (0.0 / 0.0)
  else readMagnitude? cs

/-- A decimal with an optional sign. -/
def readFloat? : List Char → Option Float
  | '-' :: rest => (readUnsigned? rest).map Float.neg
  | '+' :: rest => readUnsigned? rest
  | cs => readUnsigned? cs

example : (readNat 10 255 "+007".toList).toOption = some 7 := by decide +kernel
example : readNat 10 255 "256".toList = .error .tooLarge := rfl
example : readNat 16 255 "-1".toList = .error .invalidDigit := rfl
example : (readInt 10 127 "-128".toList).toOption = some (-128) := by decide +kernel
example : readInt 10 127 "-129".toList = .error .tooSmall := rfl

end Panadapter.Decimal
