import Panadapter.Proofs.Json.Texts
import Panadapter.Proofs.Outcome

/-!
# Records, written and read

What single values, lists and records read from the values that were written for them.

* Whole numbers below the bound of their field are read as they were written (`readNat_ofNat`). Of real numbers this is
  asked one by one (`SurvivesText`), because it does not hold of all (`not_forall_survivesText`).
* A record is read from values for all its members in order, each of which puts itself into the record
  (`Fills`, `readRecord_named`).
* A tag is told from the members among which it stands, wherever that is (`splitTag_eq_ok_iff`).
-/

namespace Panadapter.Json

open Decimal (Numeral digits)
open Outcome (error_ne_ok)

/-! ## Numbers -/

theorem isNat_ofNat (n : Nat) : (Tree.ofNat n).IsNat n := ⟨digits n, rfl, Decimal.valueOfDigits_digits n⟩

theorem number?_ofNat {n : Nat} (lt : n < wordBound) : number? (Numeral.ofNat n) = some (.natural n) :=
  number?_eq_natural_iff.2 ⟨isNat_ofNat n, lt⟩

theorem readNumber_number (p : Place) (n : Numeral) :
    readNumber p (.number n) = (number? n).elim (.error .malformed) .ok := rfl

/-- Where a number stands does not matter. -/
theorem readNumber_place (p q : Place) (t : Tree) : readNumber p t = readNumber q t := by
  cases t <;> rfl

theorem readNat_eq_ok_iff {p : Place} {t : Tree} {limit n : Nat} (bound : limit < wordBound) :
    readNat limit p t = .ok n ↔ t.IsNat n ∧ n ≤ limit := by
  unfold readNat
  rw [Outcome.bind_eq_ok_iff]
  constructor
  · rintro ⟨x, number, read⟩
    cases t with
    | number numeral =>
      rw [readNumber_number] at number
      cases worth : number? numeral with
      | none =>
        rw [worth] at number
        cases number
      | some y =>
        rw [worth] at number
        obtain rfl := Except.ok.inj number
        cases y with
        | natural k =>
          by_cases le : k ≤ limit
          · obtain rfl : k = n := Except.ok.inj ((if_pos le).symm.trans read)
            exact ⟨(number?_eq_natural_iff.1 worth).1, le⟩
          · cases (if_neg le).symm.trans read
        | negative k => cases read
        | real x => cases read
    | _ => cases number
  · rintro ⟨whole, le⟩
    refine ⟨.natural n, ?_, if_pos le⟩
    obtain ⟨ds, rfl, -⟩ := id whole
    rw [readNumber_number, number?_eq_natural_iff.2 ⟨whole, Nat.lt_of_le_of_lt le bound⟩]
    rfl

theorem readNat_ofNat {n limit : Nat} (le : n ≤ limit) (bound : limit < wordBound) (p : Place) :
    readNat limit p (.ofNat n) = .ok n :=
  (readNat_eq_ok_iff bound).2 ⟨isNat_ofNat n, le⟩

theorem writable_ofNat (n : Nat) : (Tree.ofNat n).Writable := Numeral.grammatical_ofNat n

theorem writable_ofReading (f : Decimal.Format) (r : Decimal.Reading) : (Tree.ofReading f r).Writable := by
  unfold Tree.ofReading
  cases laid : (Decimal.Layout.document f).numeral? r with
  | none => exact trivial
  | some n => exact Decimal.Layout.grammatical_numeral? (by rintro _ (_ | ⟨_, ⟨⟩⟩); rfl) laid

theorem writable_ofFloat (x : Float) : (Tree.ofFloat x).Writable := writable_ofReading _ _

theorem writable_ofFloat32 (x : Float32) : (Tree.ofFloat32 x).Writable := writable_ofReading _ _

theorem writable_ofOption {α : Type} {f : α → Tree} (each : ∀ a, (f a).Writable) :
    ∀ o : Option α, (Tree.ofOption f o).Writable
  | none => trivial
  | some a => each a

/-- What is read back from its own text. -/
def SurvivesText {α : Type} (read : Read α) (write : α → Tree) (a : α) : Prop := decode read (write a).compact = .ok a

instance {α : Type} [DecidableEq α] (read : Read α) (write : α → Tree) (a : α) :
    Decidable (SurvivesText read write a) :=
  inferInstanceAs (Decidable (decode read (write a).compact = .ok a))

/-- Not every finite number survives: some of those that take many digits are read as the number next to them. -/
theorem not_forall_survivesText : ¬ ∀ x : Float, x.isFinite = true → SurvivesText readFloat Tree.ofFloat x := by
  intro all
  have survives := all 111694.16353074883 (by decide +kernel)
  revert survives
  decide +kernel

theorem readFloat_ofFloat {x : Float} (survives : SurvivesText readFloat Tree.ofFloat x) (p : Place) :
    readFloat p (.ofFloat x) = .ok x := by
  unfold SurvivesText at survives
  rw [decode_compact readFloat (writable_ofFloat x)] at survives
  rw [← survives, readFloat, readNumber_place p .top]
  rfl

theorem readFloat32_ofFloat32 {x : Float32} (survives : SurvivesText readFloat32 Tree.ofFloat32 x) (p : Place) :
    readFloat32 p (.ofFloat32 x) = .ok x := by
  unfold SurvivesText at survives
  rw [decode_compact readFloat32 (writable_ofFloat32 x)] at survives
  rw [← survives, readFloat32, readNumber_place p .top]
  rfl

/-- What is read as a number can be kept whole. -/
theorem isKept_of_readNumber {p : Place} {t : Tree} {x : Number} (read : readNumber p t = .ok x) (levels : Nat) :
    t.isKept levels = true := by
  unfold readNumber at read
  split at read
  · next n =>
    cases worth : number? n with
    | none =>
      rw [worth] at read
      cases read
    | some y =>
      rw [Tree.isKept, worth]
      rfl
  · cases read

theorem isKept_of_readFloat {p : Place} {t : Tree} {x : Float} (read : readFloat p t = .ok x) (levels : Nat) :
    t.isKept levels = true := by
  unfold readFloat at read
  cases number : readNumber p t with
  | error e =>
    rw [number] at read
    cases read
  | ok y => exact isKept_of_readNumber number levels

theorem isKept_ofNat {n : Nat} (lt : n < wordBound) (levels : Nat) : (Tree.ofNat n).isKept levels = true := by
  rw [Tree.ofNat, Tree.isKept, number?_ofNat lt]
  rfl

/-! ## Optional values and lists -/

/-- A missing value is null, and nothing else is. -/
theorem readOption_ofOption {α : Type} {read : Read α} {f : α → Tree} {p : Place}
    (null : read p .null = .error .malformed) {o : Option α} (each : ∀ a ∈ o, read p (f a) = .ok a) :
    readOption read p (Tree.ofOption f o) = .ok o := by
  cases o with
  | none => rfl
  | some a =>
    have value := each a rfl
    show readOption read p (f a) = .ok (some a)
    unfold readOption
    split
    · next same =>
      rw [same, null] at value
      cases value
    · rw [value]
      rfl

theorem inside_of_room {p : Place} (room : p.levels ≠ 0) : p.inside = .ok { p with levels := p.levels - 1 } :=
  if_neg room

theorem readList_map {α : Type} {read : Read α} {f : α → Tree} {p : Place} (room : p.levels ≠ 0) {xs : List α}
    (each : ∀ x ∈ xs, read { p with levels := p.levels - 1 } (f x) = .ok x) :
    readList read p (.array (xs.map f)) = .ok xs := by
  show (p.inside >>= fun q => (xs.map f).mapM (read q)) = .ok xs
  rw [inside_of_room room]
  show (xs.map f).mapM (read { p with levels := p.levels - 1 }) = .ok xs
  induction xs with
  | nil => rfl
  | cons x xs ih =>
    rw [List.map_cons, List.mapM_cons, each x List.mem_cons_self,
      ih fun y mem => each y (List.mem_cons_of_mem x mem)]
    rfl

/-! ## Strings, truth values and choices -/

/-- The value that goes by a name: the name as a string, or as that of a member without value. -/
def Chooses (name : String) (t : Tree) : Prop :=
  t = .string name ∨ t = .object [(name, .null)] ∨ t = .object [(name, .object [])]

section

variable {p : Place} {t : Tree}

theorem readString_eq_ok_iff {s : String} : readString p t = .ok s ↔ t = .string s := by
  cases t with
  | string u =>
    exact ⟨fun same => congrArg Tree.string (Except.ok.inj same), fun same => congrArg _ (Tree.string.inj same)⟩
  | _ => exact iff_of_false error_ne_ok (by rintro ⟨⟩)

theorem readBool_eq_ok_iff {b : Bool} : readBool p t = .ok b ↔ t = .bool b := by
  cases t with
  | bool u => exact ⟨fun same => congrArg Tree.bool (Except.ok.inj same), fun same => congrArg _ (Tree.bool.inj same)⟩
  | _ => exact iff_of_false error_ne_ok (by rintro ⟨⟩)

theorem choose_eq_ok_iff {α : Type} {choices : List (String × α)} {name : String} {a : α} :
    choose choices name = .ok a ↔ choices.lookup name = some a := by
  unfold choose
  cases choices.lookup name with
  | none => exact iff_of_false error_ne_ok (by rintro ⟨⟩)
  | some b => exact ⟨fun same => congrArg some (Except.ok.inj same), fun same => congrArg _ (Option.some.inj same)⟩

theorem isVoid_iff (held : p.held = true) : isVoid p t = true ↔ t = .null ∨ t = .object [] := by
  cases t with
  | null => exact ⟨fun _ => .inl rfl, fun _ => rfl⟩
  | object members =>
    cases members with
    | nil => exact ⟨fun _ => .inr rfl, fun _ => held⟩
    | cons m members =>
      exact iff_of_false Bool.false_ne_true (by rintro (same | same) <;> cases same)
  | _ => exact iff_of_false Bool.false_ne_true (by rintro (same | same) <;> cases same)

section

variable {α : Type} {choices : List (String × α)} {a : α}

/-- The only member of a choice has its name and a value that says nothing. -/
theorem readChoice_singleton_eq_ok_iff (room : p.levels ≠ 0) {name : String} :
    readChoice choices p (.object [(name, t)]) = .ok a
      ↔ choose choices name = .ok a ∧ isVoid { p with levels := p.levels - 1 } t = true := by
  have chosen {void : Bool} : (choose choices name >>= fun a => if void then .ok a else .error Fault.malformed) = .ok a
      ↔ choose choices name = .ok a ∧ void = true := by
    rw [Outcome.bind_eq_ok_iff]
    constructor
    · rintro ⟨b, here, answer⟩
      cases void with
      | true => exact ⟨Except.ok.inj answer ▸ here, rfl⟩
      | false => exact absurd answer error_ne_ok
    · rintro ⟨here, rfl⟩
      exact ⟨a, here, rfl⟩
  unfold readChoice
  dsimp only
  rw [inside_of_room room]
  cases t with
  | cut => exact iff_of_false error_ne_ok (by rintro ⟨-, ⟨⟩⟩)
  | nameless value => exact iff_of_false error_ne_ok (by rintro ⟨-, ⟨⟩⟩)
  | _ => exact chosen

/-- A choice in a value that was kept whole. -/
theorem readChoice_eq_ok_iff (held : p.held = true) (room : p.levels ≠ 0) :
    readChoice choices p t = .ok a ↔ ∃ name, Chooses name t ∧ choose choices name = .ok a := by
  constructor
  · intro read
    cases t with
    | string name => exact ⟨name, .inl rfl, read⟩
    | object members =>
      cases members with
      | nil =>
        unfold readChoice at read
        dsimp only at read
        rw [inside_of_room room] at read
        cases read
      | cons m members =>
        obtain ⟨name, t⟩ := m
        cases members with
        | nil =>
          obtain ⟨chosen, void⟩ := (readChoice_singleton_eq_ok_iff room).1 read
          rcases (isVoid_iff held).1 void with rfl | rfl
          · exact ⟨name, .inr (.inl rfl), chosen⟩
          · exact ⟨name, .inr (.inr rfl), chosen⟩
        | cons n members =>
          unfold readChoice at read
          dsimp only at read
          rw [inside_of_room room] at read
          -- that there is more than one is seen before the name
          cases t <;> first | cases read | cases (if_pos held).symm.trans read
    | _ => cases read
  · rintro ⟨name, rfl | rfl | rfl, chosen⟩
    · exact chosen
    · exact (readChoice_singleton_eq_ok_iff room).2 ⟨chosen, rfl⟩
    · exact (readChoice_singleton_eq_ok_iff room).2 ⟨chosen, held⟩

end

end

/-! ## Records -/

section

variable {α : Type} {p : Place}

/-- Values, one for each member in order, that turn a record into another one when they are read. -/
inductive Fills (p : Place) : List (RecordField α) → List Tree → α → α → Prop where
  | nil (a : α) : Fills p [] [] a a
  | cons {f : RecordField α} {fields : List (RecordField α)} {t : Tree} {values : List Tree} {a b c : α}
    (writable : t.Writable) (read : f.read p t a = .ok b) (rest : Fills p fields values b c) :
    Fills p (f :: fields) (t :: values) a c

/-- The members of a record by name. -/
def named (fields : List (RecordField α)) (values : List Tree) : List (String × Tree) :=
  (fields.map RecordField.name).zip values

/-- A member of a record goes by a name of the record. -/
theorem name_mem_of_named {fields : List (RecordField α)} {values : List Tree} {m : String × Tree}
    (mem : m ∈ named fields values) : m.1 ∈ fields.map RecordField.name :=
  (List.of_mem_zip mem).1

theorem haveKept_named {levels : Nat} : ∀ {fields : List (RecordField α)} {values : List Tree},
    (∀ t ∈ values, t.isKept levels = true) → Tree.haveKept levels (named fields values) = true
  | [], _, _ => rfl
  | _ :: _, [], _ => rfl
  | f :: fields, t :: values, each => by
    show (t.isKept levels && Tree.haveKept levels (named fields values)) = true
    rw [each t List.mem_cons_self, haveKept_named fun u mem => each u (List.mem_cons_of_mem t mem)]
    rfl

namespace Fills

variable {fields : List (RecordField α)} {values : List Tree} {a b c : α}

theorem required {β : Type} {name : String} {read : Read β} {put : β → α → α} {t : Tree} {v : β}
    (writable : t.Writable) (value : read p t = .ok v) (rest : Fills p fields values (put v a) c) :
    Fills p (.required name read put :: fields) (t :: values) a c :=
  .cons writable (by show (read p t).map _ = _; rw [value]; rfl) rest

theorem defaulted {β : Type} {name : String} {read : Read β} {put : β → α → α} {t : Tree} {v : β}
    (writable : t.Writable) (value : read p t = .ok v) (rest : Fills p fields values (put v a) c) :
    Fills p (.defaulted name read put :: fields) (t :: values) a c :=
  .cons writable (by show (read p t).map _ = _; rw [value]; rfl) rest

theorem writable (fills : Fills p fields values a c) : Tree.HaveWritable (named fields values) := by
  induction fills with
  | nil => exact trivial
  | cons writable _ _ ih => exact ⟨writable, ih⟩

end Fills

theorem find?_name {done fields : List (RecordField α)} {f : RecordField α}
    (nodup : ((done ++ f :: fields).map RecordField.name).Nodup) :
    (done ++ f :: fields).find? (fun g => g.name == f.name) = some f := by
  rw [List.find?_eq_some_iff_append]
  refine ⟨beq_self_eq_true _, done, fields, rfl, ?_⟩
  intro g mem
  rw [List.map_append, List.map_cons, List.nodup_append] at nodup
  have apart := nodup.2.2 g.name (List.mem_map_of_mem mem) f.name List.mem_cons_self
  rw [Bool.not_eq_true', beq_eq_false_iff_ne]
  exact apart

section

variable {fields : List (RecordField α)} {f : RecordField α} {given : List String} {a c : α}
  {members : List (String × Tree)} {name : String} {t : Tree}

/-- A member of a name without field is passed over. -/
theorem readMembersInto_unknown_eq_ok_iff (named : ∀ value, t ≠ .nameless value)
    (unknown : fields.find? (fun f => f.name == name) = none) :
    readMembersInto fields p given a ((name, t) :: members) = .ok c
      ↔ t.isSound = true ∧ readMembersInto fields p given a members = .ok c := by
  rw [readMembersInto.eq_3 fields p given a name t members named, unknown]
  dsimp only
  by_cases sound : t.isSound = true
  · rw [if_pos sound, and_iff_right sound]
  · rw [if_neg sound]
    exact iff_of_false error_ne_ok fun h => sound h.1

/-- A member for a field is read into the record, unless there was one before. -/
theorem readMembersInto_known_eq_ok_iff (named : ∀ value, t ≠ .nameless value)
    (known : fields.find? (fun f => f.name == name) = some f) :
    readMembersInto fields p given a ((name, t) :: members) = .ok c
      ↔ name ∉ given ∧ ∃ b, f.read p t a = .ok b ∧ readMembersInto fields p (name :: given) b members = .ok c := by
  rw [readMembersInto.eq_3 fields p given a name t members named, known]
  dsimp only
  by_cases twice : name ∈ given
  · rw [if_pos (List.contains_iff_mem.2 twice)]
    exact iff_of_false error_ne_ok fun h => h.1 twice
  · rw [if_neg fun contains => twice (List.contains_iff_mem.1 contains), and_iff_right twice]
    cases read : f.read p t a with
    | error e =>
      refine iff_of_false error_ne_ok ?_
      rintro ⟨b, ⟨⟩, -⟩
    | ok b =>
      constructor
      · exact fun rest => ⟨b, rfl, rest⟩
      · rintro ⟨_, ⟨⟩, rest⟩
        exact rest

end

/-- Members in the order of the record are read one after another. The members before them are the given ones, so none
of them is met twice and at the end none is missing. -/
theorem readMembersInto_named {all done fields : List (RecordField α)} {values : List Tree} {given : List String}
    {a c : α} (parts : all = done ++ fields) (nodup : (all.map RecordField.name).Nodup)
    (met : ∀ name, name ∈ given ↔ name ∈ done.map RecordField.name) (fills : Fills p fields values a c) :
    readMembersInto all p given a (named fields values) = .ok c := by
  induction fills generalizing done given with
  | nil a =>
    have none_missing : all.find? (fun f => !f.optional && !given.contains f.name) = none := by
      rw [List.find?_eq_none]
      intro f mem
      rw [parts, List.append_nil] at mem
      have inside : given.contains f.name = true :=
        List.contains_iff_mem.2 ((met f.name).2 (List.mem_map_of_mem mem))
      rw [inside, Bool.not_true, Bool.and_false]
      decide
    show readMembersInto all p given a [] = .ok a
    rw [readMembersInto, none_missing]
  | @cons f fields t values a b c writable read rest ih =>
    have found := find?_name (parts ▸ nodup)
    rw [← parts] at found
    have new : f.name ∉ given := by
      rw [parts, List.map_append, List.map_cons, List.nodup_append] at nodup
      rw [met]
      exact fun mem => nodup.2.2 f.name mem f.name List.mem_cons_self rfl
    have named_value (value : Tree) : t ≠ .nameless value := by
      -- a member without name has no text
      rintro rfl
      exact writable
    refine (readMembersInto_known_eq_ok_iff named_value found).2 ⟨new, b, read, ?_⟩
    refine @ih (done ++ [f]) (f.name :: given) (by rw [parts, List.append_assoc]; rfl) ?_
    intro name
    rw [List.mem_cons, met, List.map_append, List.mem_append, List.map_singleton, List.mem_singleton, or_comm]

/-- A record is read from all its members in order. -/
theorem readRecord_named {fields : List (RecordField α)} {values : List Tree} {blank c : α} (room : p.levels ≠ 0)
    (nodup : (fields.map RecordField.name).Nodup)
    (fills : Fills { p with levels := p.levels - 1 } fields values blank c) :
    readRecord fields blank p (.object (named fields values)) = .ok c := by
  show (p.inside >>= fun q => readMembersInto fields q [] blank (named fields values)) = .ok c
  rw [inside_of_room room]
  exact readMembersInto_named (List.nil_append fields).symm nodup (fun name => Iff.rfl) fills

end

/-! ## Records behind a tag -/

theorem haveKept_iff {levels : Nat} {members : List (String × Tree)} :
    Tree.haveKept levels members = true ↔ ∀ m ∈ members, m.2.isKept levels = true := by
  induction members with
  | nil => exact ⟨fun _ m mem => absurd mem List.not_mem_nil, fun _ => rfl⟩
  | cons m members ih => rw [Tree.haveKept, Bool.and_eq_true, ih, List.forall_mem_cons]

section

variable {β : Type} {tag : String} {variants : List (String × β)} {levels : Nat} {members rest : List (String × Tree)}
  {b b' : β}

/-- A member that may stand beside the tag. -/
def Beside (tag : String) (levels : Nat) (m : String × Tree) : Prop := m.1 ≠ tag ∧ m.2.isKept levels = true

theorem readTag_eq_ok_iff {t : Tree} :
    readTag variants t = .ok b ↔ ∃ name, t = .string name ∧ choose variants name = .ok b := by
  constructor
  · intro known
    cases t with
    | string name => exact ⟨name, rfl, known⟩
    | _ => exact absurd known error_ne_ok
  · rintro ⟨name, rfl, known⟩
    exact known

/-- Another member is kept, and the rest is split. -/
theorem splitMembers_cons_eq_ok_iff {found : Option β} {m : String × Tree} (apart : m.1 ≠ tag) :
    splitMembers tag variants levels found (m :: members) = .ok (b, rest) ↔ m.2.isKept levels = true
      ∧ ∃ others, splitMembers tag variants levels found members = .ok (b, others) ∧ rest = m :: others := by
  have step : splitMembers tag variants levels found (m :: members) = if m.2.isKept levels then
      (splitMembers tag variants levels found members).map fun split => (split.1, m :: split.2)
      else .error .malformed := by
    cases found with
    | none => exact (splitMembers.eq_4 ..).trans (if_neg apart)
    | some b => exact (splitMembers.eq_3 ..).trans (if_neg apart)
  rw [step]
  by_cases kept : m.2.isKept levels = true
  · rw [if_pos kept, Outcome.map_eq_ok_iff]
    constructor
    · rintro ⟨⟨_, others⟩, split, same⟩
      obtain ⟨rfl, rfl⟩ := Prod.mk.inj same
      exact ⟨kept, others, split, rfl⟩
    · rintro ⟨-, others, split, rfl⟩
      exact ⟨(b, others), split, rfl⟩
  · rw [if_neg kept]
    exact iff_of_false error_ne_ok fun h => kept h.1

/-- Behind the tag there is no other, and all members are kept as they are. -/
theorem splitMembers_some_eq_ok_iff : splitMembers tag variants levels (some b) members = .ok (b', rest)
    ↔ (∀ m ∈ members, Beside tag levels m) ∧ b' = b ∧ rest = members := by
  induction members generalizing rest with
  | nil =>
    rw [splitMembers, Except.ok.injEq, Prod.mk.injEq]
    rw [eq_comm, eq_comm (a := [])]
    exact (and_iff_right fun _ mem => absurd mem List.not_mem_nil).symm
  | cons m members ih =>
    rw [List.forall_mem_cons]
    by_cases apart : m.1 = tag
    · have twice : splitMembers tag variants levels (some b) (m :: members) = .error (.duplicate tag) :=
        (splitMembers.eq_3 ..).trans (if_pos apart)
      rw [twice]
      exact iff_of_false error_ne_ok fun h => h.1.1.1 apart
    · rw [splitMembers_cons_eq_ok_iff apart]
      constructor
      · rintro ⟨kept, others, split, rfl⟩
        obtain ⟨beside, same, rfl⟩ := ih.1 split
        exact ⟨⟨⟨apart, kept⟩, beside⟩, same, rfl⟩
      · rintro ⟨⟨⟨-, kept⟩, beside⟩, same, rfl⟩
        exact ⟨kept, members, ih.2 ⟨beside, same, rfl⟩, rfl⟩

/-- The tag may stand anywhere among the members, once. -/
theorem splitMembers_eq_ok_iff : splitMembers tag variants levels none members = .ok (b, rest)
    ↔ ∃ before name after, members = before ++ (tag, .string name) :: after ∧ choose variants name = .ok b
      ∧ rest = before ++ after ∧ ∀ m ∈ rest, Beside tag levels m := by
  induction members generalizing rest with
  | nil =>
    refine iff_of_false error_ne_ok ?_
    rintro ⟨before, name, after, parts, -⟩
    exact absurd parts (List.append_ne_nil_of_right_ne_nil before (List.cons_ne_nil _ _)).symm
  | cons m members ih =>
    by_cases apart : m.1 = tag
    · have step : splitMembers tag variants levels none (m :: members)
          = readTag variants m.2 >>= fun b => splitMembers tag variants levels (some b) members :=
        (splitMembers.eq_4 ..).trans (if_pos apart)
      rw [step, Outcome.bind_eq_ok_iff]
      constructor
      · rintro ⟨b', known, split⟩
        obtain ⟨beside, rfl, rfl⟩ := splitMembers_some_eq_ok_iff.1 split
        obtain ⟨name, text, chosen⟩ := readTag_eq_ok_iff.1 known
        exact ⟨[], name, rest, congrArg (· :: rest) (Prod.ext apart text), chosen, rfl, beside⟩
      · rintro ⟨before, name, after, parts, chosen, rfl, beside⟩
        cases before with
        | nil =>
          obtain ⟨rfl, rfl⟩ := List.cons.inj parts
          exact ⟨b, readTag_eq_ok_iff.2 ⟨name, rfl, chosen⟩, splitMembers_some_eq_ok_iff.2 ⟨beside, rfl, rfl⟩⟩
        | cons first before =>
          obtain ⟨rfl, rfl⟩ := List.cons.inj parts
          exact absurd apart (beside m List.mem_cons_self).1
    · rw [splitMembers_cons_eq_ok_iff apart]
      constructor
      · rintro ⟨kept, others, split, rfl⟩
        obtain ⟨before, name, after, rfl, chosen, rfl, beside⟩ := ih.1 split
        exact ⟨m :: before, name, after, rfl, chosen, rfl, List.forall_mem_cons.2 ⟨⟨apart, kept⟩, beside⟩⟩
      · rintro ⟨before, name, after, parts, chosen, rfl, beside⟩
        cases before with
        | nil => exact absurd (congrArg Prod.fst (List.cons.inj parts).1) apart
        | cons first before =>
          obtain ⟨rfl, rfl⟩ := List.cons.inj parts
          obtain ⟨here, beside⟩ := List.forall_mem_cons.1 beside
          exact ⟨here.2, before ++ after, ih.2 ⟨before, name, after, rfl, chosen, rfl, beside⟩, rfl⟩

/-- **A tag is told from the members** among which it stands. -/
theorem splitTag_eq_ok_iff {p : Place} {t : Tree} (room : p.levels ≠ 0) :
    splitTag tag variants p (.object members) = .ok (b, t)
      ↔ ∃ before name after, members = before ++ (tag, .string name) :: after ∧ choose variants name = .ok b
        ∧ t = .object (before ++ after) ∧ ∀ m ∈ before ++ after, Beside tag (p.levels - 1) m := by
  have step : splitTag tag variants p (.object members)
      = splitMembers tag variants (p.levels - 1) none members >>= fun found => .ok (found.1, .object found.2) := by
    show (p.inside >>= fun q => splitMembers tag variants q.levels none members >>= fun found =>
      .ok (found.1, Tree.object found.2)) = _
    rw [inside_of_room room]
    rfl
  rw [step, Outcome.bind_eq_ok_iff]
  constructor
  · rintro ⟨⟨b', rest⟩, split, same⟩
    obtain ⟨rfl, rfl⟩ := Prod.mk.inj (Except.ok.inj same)
    obtain ⟨before, name, after, parts, chosen, rfl, beside⟩ := splitMembers_eq_ok_iff.1 split
    exact ⟨before, name, after, parts, chosen, rfl, beside⟩
  · rintro ⟨before, name, after, parts, chosen, rfl, beside⟩
    exact ⟨(b, before ++ after), splitMembers_eq_ok_iff.2 ⟨before, name, after, parts, chosen, rfl, beside⟩, rfl⟩

/-- A tag in front of the members is told from them. -/
theorem splitTag_front {p : Place} {name : String} (room : p.levels ≠ 0)
    (known : choose variants name = .ok b) (apart : ∀ m ∈ members, m.1 ≠ tag)
    (kept : Tree.haveKept (p.levels - 1) members = true) :
    splitTag tag variants p (.object ((tag, .string name) :: members)) = .ok (b, .object members) :=
  (splitTag_eq_ok_iff room).2
    ⟨[], name, members, rfl, known, rfl, fun m mem => ⟨apart m mem, haveKept_iff.1 kept m mem⟩⟩

end

end Panadapter.Json
