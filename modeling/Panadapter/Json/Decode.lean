import Panadapter.Json.Number
import Panadapter.Json.Reader

/-! # Values out of documents

A decoder walks a tree from left to right and stops at the first fault, so that of several faults in a text the first
one is reported, whether it is one of grammar or of meaning.

* `Fault`: what is wrong, with its wording.
* `readBool` to `readChoice`: single values.
* `readRecord`: a record, as an object of named members or as an array of the members in order. Every name is read;
  the values of members that are not asked for are passed over, and checked for grammar only.
* `splitTag`: an object or array that says by a tag which record it is. It is kept whole before the record is read, so
  what is passed over is checked as strictly as what is used.
* `decode`: a whole text.
-/

namespace Panadapter.Json

/-- What is wrong with a document. -/
inductive Fault where
  | malformed
  | missing (field : String)
  | duplicate (field : String)
  | unknownVariant (name : String) (expected : List String)
  | refused (reason : String)
  deriving DecidableEq, Repr

namespace Fault

/-- A name between grave accents. -/
def ticked (name : String) : String := "`" ++ name ++ "`"

/-- The names that would have been right: two are joined by a word, more are listed. -/
def oneOf : List String → String
  | [] => "there are no variants"
  | [a] => "expected " ++ ticked a
  | [a, b] => "expected " ++ ticked a ++ " or " ++ ticked b
  | names => "expected one of " ++ String.intercalate ", " (names.map ticked)

/-- The wording of a fault. -/
def message : Fault → String
  | malformed => "malformed"
  | missing field => "missing field " ++ ticked field
  | duplicate field => "duplicate field " ++ ticked field
  | unknownVariant name expected => "unknown variant " ++ ticked name ++ ", " ++ oneOf expected
  | refused reason => reason

end Fault

/-- Where a value stands: how many arrays and objects may still be opened around what is inside it, and whether it
belongs to a value that is kept whole before it is understood. -/
structure Place where
  levels : Nat
  held : Bool
  deriving DecidableEq, Repr

/-- A value on its own. -/
def Place.top : Place := ⟨127, false⟩

/-- Inside an array or object that stands here. -/
def Place.inside (p : Place) : Except Fault Place :=
  if p.levels = 0 then .error .malformed else .ok { p with levels := p.levels - 1 }

/-- A decoder. -/
abbrev Read (α : Type) := Place → Tree → Except Fault α

namespace Tree

mutual

/-- Whether a value can be kept whole: it is sound, has no lost string or name and no number beyond the doubles, and is
not nested deeper than `levels`. -/
def isKept (levels : Nat) : Tree → Bool
  | null => true
  | bool _ => true
  | number n => (number? n).isSome
  | string _ => true
  | surrogate => false
  | array items => levels != 0 && areKept (levels - 1) items
  | object members => levels != 0 && haveKept (levels - 1) members
  | nameless _ => false
  | broken => false
  | cut => false

/-- Whether every item can be kept whole. -/
def areKept (levels : Nat) : List Tree → Bool
  | [] => true
  | t :: rest => t.isKept levels && areKept levels rest

/-- Whether the value of every member can be kept whole. -/
def haveKept (levels : Nat) : List (String × Tree) → Bool
  | [] => true
  | (_, t) :: rest => t.isKept levels && haveKept levels rest

end

end Tree

/-! ## Single values -/

/-- A truth value. -/
def readBool : Read Bool
  | _, .bool b => .ok b
  | _, _ => .error .malformed

/-- A string. -/
def readString : Read String
  | _, .string s => .ok s
  | _, _ => .error .malformed

/-- Any value, kept whole. -/
def readAny : Read Tree := fun p t => if t.isKept p.levels then .ok t else .error .malformed

/-- A number. -/
def readNumber : Read Number
  | _, .number n => (number? n).elim (.error .malformed) .ok
  | _, _ => .error .malformed

/-- A whole number from zero to `limit`. -/
def readNat (limit : Nat) : Read Nat := fun p t => do
  match ← readNumber p t with
  | .natural n => if n ≤ limit then .ok n else .error .malformed
  | _ => .error .malformed

/-- The largest 32-bit word. -/
def largest32 : Nat := 0xffffffff

/-- The largest 64-bit word. -/
def largest64 : Nat := 0xffffffffffffffff

/-- A number in double precision. -/
def readFloat : Read Float := fun p t => (readNumber p t).map Number.toFloat

/-- A number in single precision. -/
def readFloat32 : Read Float32 := fun p t => (readNumber p t).map Number.toFloat32

/-- A value or null. -/
def readOption {α : Type} (read : Read α) : Read (Option α)
  | _, .null => .ok none
  | p, t => (read p t).map some

/-- The items of an array, each at its place. -/
def readList {α : Type} (read : Read α) : Read (List α)
  | p, .array items => do
    let p ← p.inside
    items.mapM (read p)
  | _, _ => .error .malformed

/-- The value that goes by a name. -/
def choose {α : Type} (choices : List (String × α)) (name : String) : Except Fault α :=
  match choices.lookup name with
  | some a => .ok a
  | none => .error (.unknownVariant name (choices.map Prod.fst))

/-- Whether a value may stand beside a name that needs none: null, and in a value that was kept whole also an empty
object. -/
def isVoid (p : Place) : Tree → Bool
  | .null => true
  | .object [] => p.held
  | _ => false

/-- One of several names: a string, or an object whose only member has that name and no value to speak of. In a value
that was kept whole the number of members is seen before the name. -/
def readChoice {α : Type} (choices : List (String × α)) : Read α
  | _, .string s => choose choices s
  | p, .object members => do
    let p ← p.inside
    match members with
    | (_, .cut) :: _ => .error .malformed
    | (_, .nameless _) :: _ => .error .malformed
    | [(name, t)] =>
      let a ← choose choices name
      if isVoid p t then .ok a else .error .malformed
    | (name, _) :: _ :: _ => if p.held then .error .malformed else choose choices name >>= fun _ => .error .malformed
    | [] => .error .malformed
  | _, _ => .error .malformed

/-! ## Records -/

/-- A member of a record: its name, how its value is read and put into the record, and whether it may be missing. -/
structure RecordField (α : Type) where
  name : String
  optional : Bool
  read : Place → Tree → α → Except Fault α

/-- A member that has to be there. -/
def RecordField.required {α β : Type} (name : String) (read : Read β) (put : β → α → α) : RecordField α :=
  ⟨name, false, fun p t a => (read p t).map (put · a)⟩

/-- A member that keeps its value in the blank record when it is missing. -/
def RecordField.defaulted {α β : Type} (name : String) (read : Read β) (put : β → α → α) : RecordField α :=
  ⟨name, true, fun p t a => (read p t).map (put · a)⟩

/-- Named members in the order of the text. A name that was lost stops them. `given` are the names met before; at the
end the first member that had to be there and was not is reported. -/
def readMembersInto {α : Type} (fields : List (RecordField α)) (p : Place) :
    List String → α → List (String × Tree) → Except Fault α
  | given, record, [] =>
    match fields.find? fun f => !f.optional && !given.contains f.name with
    | some f => .error (.missing f.name)
    | none => .ok record
  | _, _, (_, .nameless _) :: _ => .error .malformed
  | given, record, (name, t) :: rest =>
    match fields.find? fun f => f.name == name with
    | none => if t.isSound then readMembersInto fields p given record rest else .error .malformed
    | some f =>
      if given.contains name then .error (.duplicate name)
      else match f.read p t record with
        | .error e => .error e
        | .ok record => readMembersInto fields p (name :: given) record rest

/-- Members without names, in the order of the record. -/
def readItemsInto {α : Type} (p : Place) : List (RecordField α) → α → List Tree → Except Fault α
  | [], record, [] => .ok record
  | [], _, _ :: _ => .error .malformed
  | f :: fields, record, [] => if f.optional then readItemsInto p fields record [] else .error .malformed
  | f :: fields, record, t :: rest =>
    match f.read p t record with
    | .error e => .error e
    | .ok record => readItemsInto p fields record rest

/-- A record, given the record in which nothing has been put yet. -/
def readRecord {α : Type} (fields : List (RecordField α)) (blank : α) : Read α
  | p, .object members => do
    let p ← p.inside
    readMembersInto fields p [] blank members
  | p, .array items => do
    let p ← p.inside
    readItemsInto p fields blank items
  | _, _ => .error .malformed

/-! ## Records told apart by a tag -/

/-- What goes by the name that a tag holds. -/
def readTag {β : Type} (variants : List (String × β)) : Tree → Except Fault β
  | .string s => choose variants s
  | _ => .error .malformed

/-- The variant that the tag names, and the members beside the tag in the order of the text. -/
def splitMembers {β : Type} (tag : String) (variants : List (String × β)) (levels : Nat) :
    Option β → List (String × Tree) → Except Fault (β × List (String × Tree))
  | none, [] => .error (.missing tag)
  | some b, [] => .ok (b, [])
  | found, (name, t) :: rest =>
    if name = tag then
      match found with
      | some _ => .error (.duplicate tag)
      | none => do
        let b ← readTag variants t
        splitMembers tag variants levels (some b) rest
    else if t.isKept levels then
      (splitMembers tag variants levels found rest).map fun (b, members) => (b, (name, t) :: members)
    else .error .malformed

/-- The variant and the value without its tag, which in an array comes first. -/
def splitTag {β : Type} (tag : String) (variants : List (String × β)) : Place → Tree → Except Fault (β × Tree)
  | p, .object members => do
    let q ← p.inside
    let (b, rest) ← splitMembers tag variants q.levels none members
    return (b, .object rest)
  | p, .array items => do
    let q ← p.inside
    match items with
    | [] => .error (.missing tag)
    | t :: rest =>
      let b ← readTag variants t
      if Tree.areKept q.levels rest then return (b, .array rest) else .error .malformed
  | _, _ => .error .malformed

/-- A record without members, beside its tag: named members are passed over, others are not. -/
def readNothing : Read Unit
  | _, .object _ => .ok ()
  | _, .array [] => .ok ()
  | _, _ => .error .malformed

/-! ## Whole texts -/

/-- A value out of a text that holds nothing else. -/
def decode {α : Type} (read : Read α) (text : String) : Except Fault α :=
  let d := Document.ofText text
  match read .top d.root with
  | .error e => .error e
  | .ok a => if d.trailing then .error .malformed else .ok a

end Panadapter.Json
