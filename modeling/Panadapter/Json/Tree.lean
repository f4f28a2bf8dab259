import Panadapter.Decimal.Numeral

/-! # Documents as trees

A document keeps what its text tells: numerals as written, members in order and with repetitions, and the place where
the text stops being a document. So what a reader of the tree meets from left to right is what stands in the text from
left to right, faults included.
-/

namespace Panadapter.Json

open Decimal (Numeral)

/-- A value of a document. `surrogate` is a string with an unpaired surrogate, which no text can hold. `broken` stands
where the text goes wrong, and nothing follows it; where the name of a member should have stood, it is `cut`, as the
value of a member without name. A member whose name has an unpaired surrogate is `nameless`, with its value inside. -/
inductive Tree where
  | null
  | bool (value : Bool)
  | number (numeral : Numeral)
  | string (value : String)
  | surrogate
  | array (items : List Tree)
  | object (members : List (String × Tree))
  | nameless (value : Tree)
  | broken
  | cut
  deriving Repr, Inhabited

/-- A text read as one value, and whether more than blanks follows the value. -/
structure Document where
  root : Tree
  trailing : Bool
  deriving Repr, Inhabited

namespace Tree

/-- The numeral of a whole number, as a value. -/
def ofNat (n : Nat) : Tree := .number (Numeral.ofNat n)

mutual

/-- Whether the text goes on being a document to the end of the value. -/
def isSound : Tree → Bool
  | broken => false
  | cut => false
  | array items => areSound items
  | object members => haveSound members
  | nameless value => value.isSound
  | _ => true

/-- Whether every item is sound. -/
def areSound : List Tree → Bool
  | [] => true
  | t :: rest => t.isSound && areSound rest

/-- Whether the value of every member is sound. -/
def haveSound : List (String × Tree) → Bool
  | [] => true
  | (_, t) :: rest => t.isSound && haveSound rest

end

end Tree

end Panadapter.Json
