import Panadapter.Json.Tree

/-! # Reading a document

The text is read once, from left to right. Where it stops being a document the reader leaves a mark and stops,
so that the tree still holds everything before that place.

* `scanNumeral`, `scanString`: the two kinds of token with parts.
* `readValue`: one value, with what follows it.
* `Document.ofText`: a whole text.

The reader's fuel is counted from the text: every value and every separator takes at least one character.
-/

namespace Panadapter.Json

open Decimal (Numeral spanDigits valueOfDigits)

/-- The four blanks of a document. -/
def isBlank (c : Char) : Bool := c == ' ' || c == '\n' || c == '\t' || c == '\r'

/-- A text without the blanks it starts with. -/
def dropBlanks (cs : List Char) : List Char := cs.dropWhile isBlank

/-! ## Numerals -/

/-- The fraction digits, if there is a point; a point needs a digit after it. -/
def scanFraction : List Char → Option (List Char × List Char)
  | '.' :: rest =>
    match spanDigits rest with
    | ([], _) => none
    | (ds, after) => some (ds, after)
  | cs => some ([], cs)

/-- The digits of a power of ten, at least one of them. -/
def scanPowerDigits (negative : Bool) (cs : List Char) : Option (Option Int × List Char) :=
  match spanDigits cs with
  | ([], _) => none
  | (ds, after) => some (some (if negative then -(valueOfDigits ds : Int) else valueOfDigits ds), after)

/-- The power of ten, if there is one. -/
def scanPower : List Char → Option (Option Int × List Char)
  | 'e' :: rest => scanSigned rest
  | 'E' :: rest => scanSigned rest
  | cs => some (none, cs)
where
  scanSigned : List Char → Option (Option Int × List Char)
    | '+' :: rest => scanPowerDigits false rest
    | '-' :: rest => scanPowerDigits true rest
    | rest => scanPowerDigits false rest

/-- A numeral without its sign. A leading zero stands alone. -/
def scanMagnitude (negative : Bool) (cs : List Char) : Option (Numeral × List Char) :=
  match spanDigits cs with
  | ([], _) => none
  | ('0' :: _ :: _, _) => none
  | (whole, afterWhole) =>
    (scanFraction afterWhole).bind fun (fraction, afterFraction) =>
      (scanPower afterFraction).map fun (power, rest) => (⟨negative, whole, fraction, power⟩, rest)

/-- A numeral, with what follows it. -/
def scanNumeral : List Char → Option (Numeral × List Char)
  | '-' :: rest => scanMagnitude true rest
  | cs => scanMagnitude false cs

/-! ## Strings -/

/-- The value of a hexadecimal digit. -/
def hexValue? (c : Char) : Option Nat :=
  if '0' ≤ c ∧ c ≤ '9' then some (c.toNat - '0'.toNat)
  else if 'a' ≤ c ∧ c ≤ 'f' then some (c.toNat - 'a'.toNat + 10)
  else if 'A' ≤ c ∧ c ≤ 'F' then some (c.toNat - 'A'.toNat + 10)
  else none

/-- The 16-bit unit of four hexadecimal digits. -/
def unitOf? (a b c d : Char) : Option Nat :=
  match hexValue? a, hexValue? b, hexValue? c, hexValue? d with
  | some a, some b, some c, some d => some (((a * 16 + b) * 16 + c) * 16 + d)
  | _, _, _, _ => none

/-- Whether a unit is the first of a pair that makes one character. -/
def leads (u : Nat) : Bool := 0xd800 ≤ u && u ≤ 0xdbff

/-- Whether a unit is the second of such a pair. -/
def trails (u : Nat) : Bool := 0xdc00 ≤ u && u ≤ 0xdfff

/-- The character of a pair of units. -/
def pairChar (lead trail : Nat) : Char := Char.ofNat (0x10000 + (lead - 0xd800) * 0x400 + (trail - 0xdc00))

/-- The character behind a one-letter escape. -/
def escaped? : Char → Option Char
  | '"' => some '"'
  | '\\' => some '\\'
  | '/' => some '/'
  | 'b' => some '\x08'
  | 'f' => some '\x0c'
  | 'n' => some '\n'
  | 'r' => some '\r'
  | 't' => some '\t'
  | _ => none

/-- What stands in a string: a character, or one half of a pair written as an escape. -/
inductive Piece where
  | char (c : Char)
  | half (u : Nat)
  deriving DecidableEq, Repr

/-- The piece behind an escaped unit. -/
def Piece.ofUnit (u : Nat) : Piece := if leads u || trails u then .half u else .char (Char.ofNat u)

/-- The pieces of a string up to its closing quote, with what follows it. A bad escape, a control character and the end
of the text stop the scan. -/
def scanPieces : List Char → Option (List Piece × List Char)
  | [] => none
  | '"' :: rest => some ([], rest)
  | '\\' :: 'u' :: a :: b :: c :: d :: rest =>
    match unitOf? a b c d, scanPieces rest with
    | some u, some (pieces, after) => some (Piece.ofUnit u :: pieces, after)
    | _, _ => none
  | '\\' :: e :: rest =>
    match escaped? e, scanPieces rest with
    | some c, some (pieces, after) => some (.char c :: pieces, after)
    | _, _ => none
  | c :: rest =>
    if c < ' ' ∨ c = '\\' then none
    else match scanPieces rest with
      | some (pieces, after) => some (.char c :: pieces, after)
      | none => none

/-- The text of the pieces, if every half has its partner. -/
def joinPieces? : List Piece → Option (List Char)
  | [] => some []
  | .char c :: rest => (joinPieces? rest).map (c :: ·)
  | .half u :: .half v :: rest =>
    if leads u && trails v then (joinPieces? rest).map (pairChar u v :: ·) else none
  | .half _ :: _ => none

/-- A string up to its closing quote: its text if it has one, and what follows. -/
def scanString (cs : List Char) : Option (Option (List Char) × List Char) :=
  (scanPieces cs).map fun (pieces, rest) => (joinPieces? pieces, rest)

/-- The value of a scanned string. -/
def Tree.ofText? : Option (List Char) → Tree
  | some cs => .string (String.ofList cs)
  | none => .surrogate

/-- The member of a scanned name. -/
def member : Option (List Char) → Tree → String × Tree
  | some name, t => (String.ofList name, t)
  | none, t => ("", .nameless t)

/-! ## Values -/

/-- What is read when the text goes wrong. -/
def stopped : Tree × Option (List Char) := (.broken, none)

mutual

/-- One value, with what follows it unless the text went wrong in it. -/
def readValue : Nat → List Char → Tree × Option (List Char)
  | 0, _ => stopped
  | fuel + 1, cs =>
    match dropBlanks cs with
    | '{' :: rest =>
      match dropBlanks rest with
      | '}' :: after => (.object [], some after)
      | inside =>
        let (members, after?) := readMembers fuel inside
        (.object members, after?)
    | '[' :: rest =>
      match dropBlanks rest with
      | ']' :: after => (.array [], some after)
      | inside =>
        let (items, after?) := readItems fuel inside
        (.array items, after?)
    | '"' :: rest =>
      match scanString rest with
      | none => stopped
      | some (text?, after) => (.ofText? text?, some after)
    | 'n' :: 'u' :: 'l' :: 'l' :: rest => (.null, some rest)
    | 't' :: 'r' :: 'u' :: 'e' :: rest => (.bool true, some rest)
    | 'f' :: 'a' :: 'l' :: 's' :: 'e' :: rest => (.bool false, some rest)
    | inside =>
      match scanNumeral inside with
      | none => stopped
      | some (n, after) => (.number n, some after)

/-- The items of an array from a place where one has to stand, up to the closing bracket. -/
def readItems : Nat → List Char → List Tree × Option (List Char)
  | 0, _ => ([.broken], none)
  | fuel + 1, cs =>
    match readValue fuel cs with
    | (t, none) => ([t], none)
    | (t, some rest) =>
      match dropBlanks rest with
      | ']' :: after => ([t], some after)
      | ',' :: next =>
        let (items, after?) := readItems fuel next
        (t :: items, after?)
      | _ => ([t, .broken], none)

/-- The members of an object from a place where one has to stand, up to the closing brace. Where no
name can be read, the members are cut. -/
def readMembers : Nat → List Char → List (String × Tree) × Option (List Char)
  | 0, _ => ([("", .cut)], none)
  | fuel + 1, cs =>
    match dropBlanks cs with
    | '"' :: rest =>
      match scanString rest with
      | some (name?, afterName) =>
        match dropBlanks afterName with
        | ':' :: inside =>
          match readValue fuel inside with
          | (t, none) => ([member name? t], none)
          | (t, some rest) =>
            match dropBlanks rest with
            | '}' :: after => ([member name? t], some after)
            | ',' :: next =>
              let (members, after?) := readMembers fuel next
              (member name? t :: members, after?)
            | _ => ([member name? t, ("", .cut)], none)
        | _ => ([member name? .broken], none)
      | none => ([("", .cut)], none)
    | _ => ([("", .cut)], none)

end

/-- A whole text as a document. -/
def Document.ofText (text : String) : Document :=
  let cs := text.toList
  match readValue (2 * cs.length + 2) cs with
  | (root, none) => ⟨root, false⟩
  | (root, some rest) => ⟨root, !(dropBlanks rest).isEmpty⟩

end Panadapter.Json
