import Mathlib.Data.List.Nodup
import Panadapter.Proofs.Json.Records
import Panadapter.Proofs.Json.Spellings

/-!
# Members in any order

The members of an object may stand in any order, and between them others that nobody asks for. What such an object says
is told by `Gives`: which value goes by a name, and that no other does.

* A value of a sound text that is nested no deeper than the limit and has no number beyond the doubles can be kept whole
  (`Tree.WithinLimits.isKept`).
* A record is read if its members are, none is there twice and none is missing (`exists_readMembersInto`).
* What a member has put into a record stays there (`readMembersInto_puts`): the other members leave it alone, and a
  second one of the same name stops the reader.
-/

namespace Panadapter.Json

open Decimal (Numeral)
open Outcome (error_ne_ok)

/-! ## Limits -/

mutual

/-- How many arrays and objects stand inside one another. -/
def Tree.height : Tree → Nat
  | .array items => heightOfItems items + 1
  | .object members => heightOfMembers members + 1
  | .nameless value => value.height
  | _ => 0

/-- The height of the highest item. -/
def heightOfItems : List Tree → Nat
  | [] => 0
  | t :: rest => max t.height (heightOfItems rest)

/-- The height of the highest value of a member. -/
def heightOfMembers : List (String × Tree) → Nat
  | [] => 0
  | (_, t) :: rest => max t.height (heightOfMembers rest)

end

mutual

/-- The numerals in a value. -/
def Tree.numerals : Tree → List Numeral
  | .number n => [n]
  | .array items => numeralsOfItems items
  | .object members => numeralsOfMembers members
  | .nameless value => value.numerals
  | _ => []

/-- The numerals in some items. -/
def numeralsOfItems : List Tree → List Numeral
  | [] => []
  | t :: rest => t.numerals ++ numeralsOfItems rest

/-- The numerals in the values of some members. -/
def numeralsOfMembers : List (String × Tree) → List Numeral
  | [] => []
  | (_, t) :: rest => t.numerals ++ numeralsOfMembers rest

end

/-- No deeper nested than `levels`, and without a number beyond the doubles. -/
structure Tree.WithinLimits (levels : Nat) (t : Tree) : Prop where
  height : t.height ≤ levels
  numerals : ∀ n ∈ t.numerals, (number? n).isSome = true

mutual

theorem isKept_of_spelledAs : ∀ (t : Tree) {cs : List Char} {levels : Nat}, t.SpelledAs cs → t.height ≤ levels →
    (∀ n ∈ t.numerals, (number? n).isSome = true) → t.isKept levels = true
  | .null, _, _, _, _, _ => rfl
  | .bool _, _, _, _, _, _ => rfl
  | .number n, _, _, _, _, worth => worth n List.mem_cons_self
  | .string _, _, _, _, _, _ => rfl
  | .array items, _, levels, ⟨_, spelled, _⟩, height, worth => by
    rw [Tree.height] at height
    rw [Tree.isKept, Bool.and_eq_true, bne_iff_ne]
    exact ⟨by omega, areKept_of_spelledAs items spelled (by omega) worth⟩
  | .object members, _, levels, ⟨_, spelled, _⟩, height, worth => by
    rw [Tree.height] at height
    rw [Tree.isKept, Bool.and_eq_true, bne_iff_ne]
    exact ⟨by omega, haveKept_of_spelledAs members spelled (by omega) worth⟩
  | .surrogate, _, _, spelled, _, _ => spelled.elim
  | .nameless _, _, _, spelled, _, _ => spelled.elim
  | .broken, _, _, spelled, _, _ => spelled.elim
  | .cut, _, _, spelled, _, _ => spelled.elim

theorem areKept_of_spelledAs : ∀ (items : List Tree) {cs : List Char} {levels : Nat}, SpellsItems items cs →
    heightOfItems items ≤ levels → (∀ n ∈ numeralsOfItems items, (number? n).isSome = true) →
    Tree.areKept levels items = true
  | [], _, _, _, _, _ => rfl
  | [t], _, levels, ⟨_, _, _, _, spelled, _, _⟩, height, worth => by
    rw [heightOfItems, heightOfItems] at height
    rw [numeralsOfItems, numeralsOfItems, List.append_nil] at worth
    rw [Tree.areKept, isKept_of_spelledAs t spelled (by omega) worth]
    rfl
  | t :: u :: items, _, levels, ⟨_, _, ⟨_, _, _, _, spelled, _, _⟩, more, _⟩, height, worth => by
    rw [heightOfItems] at height
    rw [numeralsOfItems, List.forall_mem_append] at worth
    rw [Tree.areKept, isKept_of_spelledAs t spelled (by omega) worth.1,
      areKept_of_spelledAs (u :: items) more (by omega) worth.2]
    rfl

theorem haveKept_of_spelledAs : ∀ (members : List (String × Tree)) {cs : List Char} {levels : Nat},
    SpellsMembers members cs → heightOfMembers members ≤ levels →
    (∀ n ∈ numeralsOfMembers members, (number? n).isSome = true) → Tree.haveKept levels members = true
  | [], _, _, _, _, _ => rfl
  | [(_, t)], _, levels, ⟨_, _, _, _, ⟨_, _, _, _, _, _, _, spelled, _⟩, _, _⟩, height, worth => by
    rw [heightOfMembers, heightOfMembers] at height
    rw [numeralsOfMembers, numeralsOfMembers, List.append_nil] at worth
    rw [Tree.haveKept, isKept_of_spelledAs t spelled (by omega) worth]
    rfl
  | (_, t) :: m :: members, _, levels, ⟨_, _, ⟨_, _, _, _, ⟨_, _, _, _, _, _, _, spelled, _⟩, _, _⟩, more, _⟩, height,
      worth => by
    rw [heightOfMembers] at height
    rw [numeralsOfMembers, List.forall_mem_append] at worth
    rw [Tree.haveKept, isKept_of_spelledAs t spelled (by omega) worth.1,
      haveKept_of_spelledAs (m :: members) more (by omega) worth.2]
    rfl

end

mutual

/-- What can be kept is sound. -/
theorem isSound_of_isKept : ∀ {t : Tree} {levels : Nat}, t.isKept levels = true → t.isSound = true
  | .null, _, _ => rfl
  | .bool _, _, _ => rfl
  | .number _, _, _ => rfl
  | .string _, _, _ => rfl
  | .array items, levels, kept => by
    rw [Tree.isKept, Bool.and_eq_true] at kept
    exact areSound_of_areKept kept.2
  | .object members, levels, kept => by
    rw [Tree.isKept, Bool.and_eq_true] at kept
    exact haveSound_of_haveKept kept.2

theorem areSound_of_areKept : ∀ {items : List Tree} {levels : Nat}, Tree.areKept levels items = true →
    Tree.areSound items = true
  | [], _, _ => rfl
  | t :: items, levels, kept => by
    rw [Tree.areKept, Bool.and_eq_true] at kept
    rw [Tree.areSound, isSound_of_isKept kept.1, areSound_of_areKept kept.2]
    rfl

theorem haveSound_of_haveKept : ∀ {members : List (String × Tree)} {levels : Nat},
    Tree.haveKept levels members = true → Tree.haveSound members = true
  | [], _, _ => rfl
  | (_, t) :: members, levels, kept => by
    rw [Tree.haveKept, Bool.and_eq_true] at kept
    rw [Tree.haveSound, isSound_of_isKept kept.1, haveSound_of_haveKept kept.2]
    rfl

end

/-- A value of a sound text within the limits can be kept whole. -/
theorem Tree.WithinLimits.isKept {t : Tree} {cs : List Char} {levels : Nat} (limits : t.WithinLimits levels)
    (spelled : t.SpelledAs cs) : t.isKept levels = true :=
  isKept_of_spelledAs t spelled limits.height limits.numerals

/-! ## What an object says -/

/-- The one value that goes by a name. -/
def Gives (members : List (String × Tree)) (name : String) (t : Tree) : Prop := ∀ u, (name, u) ∈ members ↔ u = t

section

variable {members before after : List (String × Tree)} {name tag : String} {t u : Tree}

theorem Gives.mem (gives : Gives members name t) : (name, t) ∈ members := (gives t).2 rfl

theorem gives_of_mem (nodup : (members.map Prod.fst).Nodup) (mem : (name, t) ∈ members) : Gives members name t := by
  intro u
  constructor
  · intro other
    exact congrArg Prod.snd (List.inj_on_of_nodup_map nodup other mem rfl)
  · rintro rfl
    exact mem

/-- Besides the tag, an object says what its other members say. -/
theorem gives_beside (apart : name ≠ tag) :
    Gives (before ++ (tag, u) :: after) name t ↔ Gives (before ++ after) name t := by
  have same (v : Tree) : (name, v) ∈ before ++ (tag, u) :: after ↔ (name, v) ∈ before ++ after := by
    rw [List.mem_append, List.mem_cons, List.mem_append]
    have other : (name, v) ≠ (tag, u) := fun same => apart (congrArg Prod.fst same)
    simp only [other, false_or]
  exact forall_congr' fun v => by rw [same]

/-- The tag is given if none of the other members has its name. -/
theorem gives_tag (apart : ∀ m ∈ before ++ after, m.1 ≠ tag) : Gives (before ++ (tag, u) :: after) tag u := by
  intro v
  constructor
  · intro mem
    rw [List.mem_append, List.mem_cons] at mem
    rcases mem with mem | same | mem
    · exact absurd rfl (apart _ (List.mem_append_left after mem))
    · exact (Prod.mk.inj same).2
    · exact absurd rfl (apart _ (List.mem_append_right before mem))
  · rintro rfl
    exact List.mem_append_right before List.mem_cons_self

end

/-! ## Records from members in any order -/

section

variable {α : Type} {fields : List (RecordField α)} {f : RecordField α} {p : Place} {given : List String} {a c : α}
  {members : List (String × Tree)} {m : String × Tree} {t : Tree}

theorem find?_of_mem (nodup : (fields.map RecordField.name).Nodup) (mem : f ∈ fields) :
    fields.find? (fun g => g.name == f.name) = some f := by
  obtain ⟨done, rest, rfl⟩ := List.append_of_mem mem
  exact find?_name nodup

theorem readMembersInto_nil_eq_ok_iff : readMembersInto fields p given a [] = .ok c
    ↔ (∀ f ∈ fields, f.optional = false → f.name ∈ given) ∧ a = c := by
  rw [readMembersInto]
  have met (f : RecordField α) : ¬((!f.optional && !given.contains f.name) = true)
      ↔ (f.optional = false → f.name ∈ given) := by
    rw [Bool.and_eq_true, Bool.not_eq_true', Bool.not_eq_true', not_and, Bool.not_eq_false, List.contains_iff_mem]
  cases missing : fields.find? fun f => !f.optional && !given.contains f.name with
  | none =>
    rw [List.find?_eq_none] at missing
    rw [Except.ok.injEq]
    exact ⟨fun same => ⟨fun f mem => (met f).1 (missing f mem), same⟩, And.right⟩
  | some f =>
    have required := List.find?_some missing
    have mem := List.mem_of_find?_eq_some missing
    exact iff_of_false error_ne_ok fun h => (met f).2 (h.1 f mem) required

/-- A member of a record is passed over or read into it, and then the others are read. -/
theorem readMembersInto_cons (read : readMembersInto fields p given a (m :: members) = .ok c) :
    (fields.find? (fun f => f.name == m.1) = none ∧ readMembersInto fields p given a members = .ok c)
      ∨ ∃ f, fields.find? (fun f => f.name == m.1) = some f ∧ m.1 ∉ given
        ∧ ∃ b, f.read p m.2 a = .ok b ∧ readMembersInto fields p (m.1 :: given) b members = .ok c := by
  obtain ⟨name, t⟩ := m
  have named (value : Tree) : t ≠ .nameless value := by
    rintro rfl
    rw [readMembersInto] at read
    exact error_ne_ok read
  cases found : fields.find? fun f => f.name == name with
  | none => exact .inl ⟨rfl, ((readMembersInto_unknown_eq_ok_iff named found).1 read).2⟩
  | some f => exact .inr ⟨f, rfl, (readMembersInto_known_eq_ok_iff named found).1 read⟩

/-- The field that a name finds has that name. -/
theorem field_of_find? (found : fields.find? (fun g => g.name == m.1) = some f) : f ∈ fields ∧ f.name = m.1 := by
  have same := List.find?_some found
  exact ⟨List.mem_of_find?_eq_some found, beq_iff_eq.1 same⟩

/-- Every field that has to be there has been met or is still to come. -/
def NoneMissing (fields : List (RecordField α)) (given : List String) (members : List (String × Tree)) : Prop :=
  ∀ f ∈ fields, f.optional = false → f.name ∈ given ∨ ∃ t, (f.name, t) ∈ members

/-- A member without field is none that has to be there. -/
theorem NoneMissing.of_unknown (unknown : fields.find? (fun f => f.name == m.1) = none)
    (complete : NoneMissing fields given (m :: members)) : NoneMissing fields given members := by
  intro f mem required
  refine (complete f mem required).imp_right fun there => there.imp fun t there => ?_
  refine (List.mem_cons.1 there).resolve_left fun same => ?_
  have apart := List.find?_eq_none.1 unknown f mem
  rw [← same, beq_self_eq_true] at apart
  exact apart rfl

/-- What is still to come comes from the next member or later. -/
theorem noneMissing_cons_iff :
    NoneMissing fields given (m :: members) ↔ NoneMissing fields (m.1 :: given) members := by
  refine forall₃_congr fun f _ _ => ?_
  constructor
  · rintro (met | ⟨t, there⟩)
    · exact .inl (List.mem_cons_of_mem _ met)
    · rcases List.mem_cons.1 there with same | there
      · exact .inl (same ▸ List.mem_cons_self)
      · exact .inr ⟨t, there⟩
  · rintro (met | ⟨t, there⟩)
    · rcases List.mem_cons.1 met with here | met
      · exact .inr ⟨m.2, here ▸ List.mem_cons_self⟩
      · exact .inl met
    · exact .inr ⟨t, List.mem_cons_of_mem m there⟩

/-- Of a record that was read, what had to be there was there. -/
theorem noneMissing_of_readMembersInto (read : readMembersInto fields p given a members = .ok c) :
    NoneMissing fields given members := by
  induction members generalizing given a with
  | nil => exact fun f mem required => .inl ((readMembersInto_nil_eq_ok_iff.1 read).1 f mem required)
  | cons m members ih =>
    obtain ⟨-, rest⟩ | ⟨g, -, -, b, -, rest⟩ := readMembersInto_cons read
    · exact fun f mem required => (ih rest f mem required).imp_right fun there =>
        there.imp fun _ => List.mem_cons_of_mem m
    · exact noneMissing_cons_iff.2 (ih rest)

/-- A field that has been met is not met again. -/
theorem not_mem_of_given (found : fields.find? (fun g => g.name == f.name) = some f) (met : f.name ∈ given)
    (read : readMembersInto fields p given a members = .ok c) (t : Tree) : (f.name, t) ∉ members := by
  induction members generalizing given a with
  | nil => exact List.not_mem_nil
  | cons m members ih =>
    rw [List.mem_cons, not_or]
    obtain ⟨unknown, rest⟩ | ⟨g, -, new, b, -, rest⟩ := readMembersInto_cons read
    · refine ⟨?_, ih met rest⟩
      rintro rfl
      rw [found] at unknown
      cases unknown
    · refine ⟨?_, ih (List.mem_cons_of_mem _ met) rest⟩
      rintro rfl
      exact new met

section

variable {Q : α → Prop}

/-- What the fields of all members leave alone holds to the end. -/
theorem readMembersInto_keeps (kept : ∀ g ∈ fields, (∃ t, (g.name, t) ∈ members) →
    ∀ t a b, g.read p t a = .ok b → Q a → Q b) (initial : Q a)
    (read : readMembersInto fields p given a members = .ok c) : Q c := by
  induction members generalizing given a with
  | nil => exact (readMembersInto_nil_eq_ok_iff.1 read).2 ▸ initial
  | cons m members ih =>
    have later (g : RecordField α) (mem : g ∈ fields) (there : ∃ t, (g.name, t) ∈ members) :=
      kept g mem (there.imp fun _ => List.mem_cons_of_mem m)
    obtain ⟨-, rest⟩ | ⟨g, found, -, b, value, rest⟩ := readMembersInto_cons read
    · exact ih later initial rest
    · obtain ⟨mem, name⟩ := field_of_find? found
      exact ih later (kept g mem ⟨m.2, name ▸ List.mem_cons_self⟩ m.2 a b value initial) rest

/-- **What a member puts into a record stays there**, since no other member has its name and those of other names leave
it alone. -/
theorem readMembersInto_puts (nodup : (fields.map RecordField.name).Nodup) (mem : f ∈ fields)
    (put : ∀ a b, f.read p t a = .ok b → Q b)
    (kept : ∀ g ∈ fields, g.name ≠ f.name → ∀ u a b, g.read p u a = .ok b → Q a → Q b)
    (member : (f.name, t) ∈ members) (read : readMembersInto fields p given a members = .ok c) :
    Q c ∧ Gives members f.name t := by
  have found := find?_of_mem nodup mem
  induction members generalizing given a with
  | nil => exact absurd member List.not_mem_nil
  | cons m members ih =>
    have later (apart : m.1 ≠ f.name) : (f.name, t) ∈ members := by
      refine (List.mem_cons.1 member).resolve_left fun same => apart ?_
      rw [← same]
    -- another member in front says nothing under this name
    have gives (apart : m.1 ≠ f.name) (gives : Gives members f.name t) : Gives (m :: members) f.name t := by
      intro u
      rw [List.mem_cons, gives u]
      exact or_iff_right fun same => apart (congrArg Prod.fst same).symm
    obtain ⟨unknown, rest⟩ | ⟨g, known, new, b, value, rest⟩ := readMembersInto_cons read
    · have apart : m.1 ≠ f.name := by
        intro same
        rw [same, found] at unknown
        cases unknown
      exact (ih (later apart) rest).imp_right (gives apart)
    · by_cases apart : m.1 = f.name
      · rw [apart] at known rest
        obtain rfl := Option.some.inj (found.symm.trans known)
        have once := not_mem_of_given found List.mem_cons_self rest
        have here : m = (f.name, t) := ((List.mem_cons.1 member).resolve_right (once t)).symm
        subst here
        refine ⟨readMembersInto_keeps (fun g mem there => kept g mem ?_) (put a b value) rest, fun u => ?_⟩
        · intro same
          obtain ⟨u, there⟩ := there
          exact once u (same ▸ there)
        · rw [List.mem_cons, or_iff_left (once u), Prod.mk.injEq, and_iff_right rfl]
      · exact (ih (later apart) rest).imp_right (gives apart)

end

/-- A record is read if its members are, wherever they stand, none is there twice and none is missing. -/
theorem exists_readMembersInto {levels : Nat} (nodup : (members.map Prod.fst).Nodup) (new : ∀ m ∈ members, m.1 ∉ given)
    (kept : ∀ m ∈ members, m.2.isKept levels = true)
    (readable : ∀ f ∈ fields, ∀ t, (f.name, t) ∈ members → ∀ a, ∃ b, f.read p t a = .ok b)
    (complete : NoneMissing fields given members) : ∃ c, readMembersInto fields p given a members = .ok c := by
  induction members generalizing given a with
  | nil =>
    refine ⟨a, readMembersInto_nil_eq_ok_iff.2 ⟨fun f mem required => ?_, rfl⟩⟩
    refine (complete f mem required).resolve_right ?_
    rintro ⟨t, there⟩
    exact List.not_mem_nil there
  | cons m members ih =>
    obtain ⟨once, nodup⟩ := List.nodup_cons.1 nodup
    obtain ⟨here, new⟩ := List.forall_mem_cons.1 new
    obtain ⟨sound, kept⟩ := List.forall_mem_cons.1 kept
    have named (value : Tree) : m.2 ≠ .nameless value := by
      intro same
      rw [same] at sound
      cases sound
    have later (f : RecordField α) (mem : f ∈ fields) (t : Tree) (there : (f.name, t) ∈ members) :=
      readable f mem t (List.mem_cons_of_mem m there)
    cases found : fields.find? fun f => f.name == m.1 with
    | none =>
      obtain ⟨c, read⟩ := @ih given a nodup new kept later (complete.of_unknown found)
      exact ⟨c, (readMembersInto_unknown_eq_ok_iff named found).2 ⟨isSound_of_isKept sound, read⟩⟩
    | some f =>
      obtain ⟨mem, name⟩ := field_of_find? found
      obtain ⟨b, value⟩ := readable f mem m.2 (name ▸ List.mem_cons_self) a
      have fresh (n : String × Tree) (there : n ∈ members) : n.1 ∉ m.1 :: given := by
        rw [List.mem_cons, not_or]
        exact ⟨fun same => once (same ▸ List.mem_map_of_mem there), new n there⟩
      obtain ⟨c, read⟩ := @ih (m.1 :: given) b nodup fresh kept later (noneMissing_cons_iff.1 complete)
      exact ⟨c, (readMembersInto_known_eq_ok_iff named found).2 ⟨here, b, value, read⟩⟩

theorem readRecord_object (room : p.levels ≠ 0) : readRecord fields a p (.object members)
    = readMembersInto fields { p with levels := p.levels - 1 } [] a members := by
  show (p.inside >>= fun q => readMembersInto fields q [] a members) = _
  rw [inside_of_room room]
  rfl

theorem required_eq_ok_iff {β : Type} {name : String} {read : Read β} {put : β → α → α} :
    (RecordField.required name read put).read p t a = .ok c ↔ ∃ v, read p t = .ok v ∧ put v a = c :=
  Outcome.map_eq_ok_iff

/-- A required field holds what was read from the member of its name, if the other fields leave it alone. -/
theorem gives_required {β : Type} {name : String} {value : Read β} {put : β → α → α} (get : α → β)
    (room : p.levels ≠ 0) (nodup : (fields.map RecordField.name).Nodup)
    (mem : RecordField.required name value put ∈ fields) (puts : ∀ v a, get (put v a) = v)
    (kept : ∀ g ∈ fields, g.name ≠ name → ∀ p u a b, g.read p u a = .ok b → get b = get a)
    (read : readRecord fields a p (.object members) = .ok c) :
    ∃ t, value { p with levels := p.levels - 1 } t = .ok (get c) ∧ Gives members name t := by
  rw [readRecord_object room] at read
  obtain ⟨t, there⟩ := (noneMissing_of_readMembersInto read _ mem rfl).resolve_left List.not_mem_nil
  refine ⟨t, readMembersInto_puts (Q := fun c => value { p with levels := p.levels - 1 } t = .ok (get c)) nodup mem
    ?_ ?_ there read⟩
  · intro a b field
    obtain ⟨v, read, rfl⟩ := required_eq_ok_iff.1 field
    rw [puts, read]
  · intro g mem apart u a b field read
    rw [kept g mem apart _ u a b field, read]

end

end Panadapter.Json
