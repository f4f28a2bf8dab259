import Panadapter.Proofs.Json.Members
import Panadapter.Proofs.Scope.Documents
import Panadapter.Scope.Command

/-!
# Commands in texts

A command is told by the members of an object: by its tag, by its stream and by at most one value. Where they stand,
what stands between them and how the text is spelled does not matter.

* `ScopeCommand.ToldBy`: what an object has to say to be a command.
* What a reader of one kind of command makes of an object is what the object tells (`of_readPlain`, `of_readValued`),
  and it makes something of every object that tells it (`readPlain_of_gives`, `readValued_of_gives`).
* So the command of a text is the one that its object tells, and without tag, a field or a length of the menu there is
  none (`command_texts`).
-/

namespace Panadapter

open Json

namespace StreamCommand

/-- The field that a change has beside its stream. -/
def field? : StreamCommand → Option String
  | setFftLength _ => some "length"
  | setPalette _ => some "palette"
  | setMode _ => some "mode"
  | setWaterfall _ => some "enabled"
  | setCadence _ => some "every"
  | enable | disable | clearWaterfall => none

/-- The values by which a change is told. -/
def Tells : StreamCommand → Tree → Prop
  | setFftLength n => (Tree.IsNat · n.points)
  | setPalette palette => Chooses palette.name
  | setMode mode => Chooses mode.name
  | setWaterfall enabled => (· = .bool enabled)
  | setCadence every => (Tree.IsNat · every)
  | enable | disable | clearWaterfall => fun _ => True

end StreamCommand

namespace ScopeCommand

/-- The fields of a command beside its tag. -/
def fields : ScopeCommand → List String
  | change _ command => "stream" :: command.field?.toList
  | quit => []

/-- The number of a cadence is a word of 32 bits. -/
def InRange : ScopeCommand → Prop
  | change _ (.setCadence every) => every ≤ largest32
  | _ => True

/-- The members of an object give every field of a command its value. -/
def FieldsIn (members : List (String × Tree)) : ScopeCommand → Prop
  | change stream command => Gives members "stream" (.string stream)
    ∧ ∀ field ∈ command.field?, ∃ t, command.Tells t ∧ Gives members field t
  | quit => True

/-- The members of an object are the tag of a command and its fields, and others that are not asked for. -/
def ToldBy (members : List (String × Tree)) (c : ScopeCommand) : Prop :=
  Gives members "cmd" (.string c.name) ∧ c.FieldsIn members

end ScopeCommand

/-! ## Values -/

theorem FftLength.read_eq_ok_iff {p : Place} {t : Tree} {n : FftLength} : read p t = .ok n ↔ t.IsNat n.points := by
  unfold read
  rw [Outcome.bind_eq_ok_iff]
  constructor
  · rintro ⟨k, count, listed⟩
    have counts := ((readNat_eq_ok_iff (by decide)).1 count).1
    cases length : ofPoints? k with
    | error e =>
      rw [length] at listed
      cases listed
    | ok m =>
      rw [length] at listed
      obtain rfl : m = n := Except.ok.inj listed
      rwa [points_of_ofPoints? length]
  · intro counts
    refine ⟨n.points, (readNat_eq_ok_iff (by decide)).2 ⟨counts, ?_⟩, ?_⟩
    · rw [points, Nat.one_shiftLeft]
      exact Nat.le_trans (Nat.pow_le_pow_right (by decide) n.le_twenty) (by decide)
    · rw [ofPoints?_points]
      rfl

/-- Choices by their own names. -/
theorem readChoice_named_eq_ok_iff {α : Type} {choices : List (String × α)} {name : α → String}
    (own : ∀ m ∈ choices, m.1 = name m.2) (listed : ∀ a, choices.lookup (name a) = some a) {p : Place} {t : Tree}
    (held : p.held = true) (room : p.levels ≠ 0) {a : α} : readChoice choices p t = .ok a ↔ Chooses (name a) t := by
  rw [readChoice_eq_ok_iff held room]
  constructor
  · rintro ⟨text, chooses, chosen⟩
    obtain ⟨before, after, parts, -⟩ := List.lookup_eq_some_iff.1 (choose_eq_ok_iff.1 chosen)
    have same : text = name a := own (text, a) (parts ▸ List.mem_append_right before List.mem_cons_self)
    rwa [← same]
  · exact fun chooses => ⟨name a, chooses, choose_eq_ok_iff.2 (listed a)⟩

theorem Palette.read_eq_ok_iff {p : Place} {t : Tree} (held : p.held = true) (room : p.levels ≠ 0) {palette : Palette} :
    read p t = .ok palette ↔ Chooses palette.name t :=
  readChoice_named_eq_ok_iff (by decide) (by intro a; cases a <;> rfl) held room

theorem DisplayMode.read_eq_ok_iff {p : Place} {t : Tree} (held : p.held = true) (room : p.levels ≠ 0)
    {mode : DisplayMode} : readChoice named p t = .ok mode ↔ Chooses mode.name t :=
  readChoice_named_eq_ok_iff (by decide) (by intro a; cases a <;> rfl) held room

/-! ## Readers -/

namespace ScopeCommand

section

variable {p : Place} {members : List (String × Tree)} {c : ScopeCommand} {stream : String}

/-! The record of a change without value holds the stream that the object gives. -/

theorem plain_of_record {blank record : String × Unit} (room : p.levels ≠ 0)
    (read : readRecord [streamField] blank p (.object members) = .ok record) :
    Gives members "stream" (.string record.1) := by
  have nodup : ([streamField (α := Unit)].map RecordField.name).Nodup := List.nodup_singleton "stream"
  obtain ⟨t, text, gives⟩ := gives_required Prod.fst room nodup (List.mem_singleton_self streamField) (fun _ _ => rfl)
    (fun g mem apart => absurd (congrArg RecordField.name (List.mem_singleton.1 mem)) apart) read
  exact readString_eq_ok_iff.1 text ▸ gives

theorem of_readPlain {command : StreamCommand} (room : p.levels ≠ 0)
    (answer : readPlain command p (.object members) = .ok c) :
    ∃ stream, c = change stream command ∧ Gives members "stream" (.string stream) := by
  obtain ⟨record, read, rfl⟩ := Outcome.map_eq_ok_iff.1 answer
  exact ⟨record.1, rfl, plain_of_record room read⟩

theorem readPlain_of_gives {command : StreamCommand} {levels : Nat} (room : p.levels ≠ 0)
    (nodup : (members.map Prod.fst).Nodup) (kept : ∀ m ∈ members, m.2.isKept levels = true)
    (gives : Gives members "stream" (.string stream)) :
    readPlain command p (.object members) = .ok (change stream command) := by
  obtain ⟨record, read⟩ : ∃ record, readRecord [streamField] ("", ()) p (.object members) = .ok record := by
    rw [readRecord_object room]
    refine exists_readMembersInto nodup (fun _ _ => List.not_mem_nil) kept ?_ ?_
    · rintro f mem t there a
      obtain rfl := List.mem_singleton.1 mem
      obtain rfl := (gives t).1 there
      exact ⟨(stream, a.2), rfl⟩
    · rintro f mem -
      obtain rfl := List.mem_singleton.1 mem
      exact .inr ⟨_, gives.mem⟩
  have same : record.1 = stream := Tree.string.inj ((gives _).1 (plain_of_record room read).mem)
  exact Outcome.map_eq_ok_iff.2 ⟨record, read, congrArg (change · command) same⟩

/-! The record of a change to a value holds the stream and the value that the object gives. -/

section

variable {α : Type} {member : String} {value : Read α} {v : α} {command : α → StreamCommand} {t : Tree}

/-- The fields of a change to a value. -/
def valuedFields (member : String) (value : Read α) : List (RecordField (String × α)) :=
  [streamField, .required member value fun v c => (c.1, v)]

theorem valued_of_record {blank record : String × α} (room : p.levels ≠ 0) (apart : member ≠ "stream")
    (read : readRecord (valuedFields member value) blank p (.object members) = .ok record) :
    Gives members "stream" (.string record.1)
      ∧ ∃ t, value { p with levels := p.levels - 1 } t = .ok record.2 ∧ Gives members member t := by
  have nodup : ((valuedFields member value).map RecordField.name).Nodup := by
    show ["stream", member].Nodup
    rw [List.nodup_cons, List.mem_singleton]
    exact ⟨apart.symm, List.nodup_singleton member⟩
  -- each of the two fields leaves the other alone
  have stream_kept : ∀ g ∈ valuedFields member value, g.name ≠ "stream" → ∀ p u a b, g.read p u a = .ok b →
      b.1 = a.1 := by
    intro g mem other p u a b field
    obtain rfl | mem := List.mem_cons.1 mem
    · exact absurd rfl other
    · obtain rfl := List.mem_singleton.1 mem
      obtain ⟨v, -, rfl⟩ := required_eq_ok_iff.1 field
      rfl
  have value_kept : ∀ g ∈ valuedFields member value, g.name ≠ member → ∀ p u a b, g.read p u a = .ok b →
      b.2 = a.2 := by
    intro g mem other p u a b field
    obtain rfl | mem := List.mem_cons.1 mem
    · obtain ⟨v, -, rfl⟩ := required_eq_ok_iff.1 field
      rfl
    · exact absurd (congrArg RecordField.name (List.mem_singleton.1 mem)) other
  obtain ⟨s, text, stream⟩ := gives_required Prod.fst room nodup List.mem_cons_self (fun _ _ => rfl) stream_kept read
  exact ⟨readString_eq_ok_iff.1 text ▸ stream, gives_required Prod.snd room nodup
    (List.mem_cons_of_mem _ List.mem_cons_self) (fun _ _ => rfl) value_kept read⟩

theorem of_readValued {blank : α} (room : p.levels ≠ 0) (apart : member ≠ "stream")
    (answer : readValued member value blank command p (.object members) = .ok c) :
    ∃ stream v t, c = change stream (command v) ∧ Gives members "stream" (.string stream)
      ∧ value { p with levels := p.levels - 1 } t = .ok v ∧ Gives members member t := by
  obtain ⟨record, read, rfl⟩ := Outcome.map_eq_ok_iff.1 answer
  obtain ⟨stream, t, value, given⟩ := valued_of_record room apart read
  exact ⟨record.1, record.2, t, rfl, stream, value, given⟩

theorem readValued_of_gives {blank : α} {levels : Nat} (room : p.levels ≠ 0) (apart : member ≠ "stream")
    (nodup : (members.map Prod.fst).Nodup) (kept : ∀ m ∈ members, m.2.isKept levels = true)
    (gives : Gives members "stream" (.string stream))
    (worth : value { p with levels := p.levels - 1 } t = .ok v) (given : Gives members member t) :
    readValued member value blank command p (.object members) = .ok (change stream (command v)) := by
  obtain ⟨record, read⟩ : ∃ record, readRecord (valuedFields member value) ("", blank) p (.object members)
      = .ok record := by
    rw [readRecord_object room]
    refine exists_readMembersInto nodup (fun _ _ => List.not_mem_nil) kept ?_ ?_
    · rintro f mem u there a
      obtain rfl | mem := List.mem_cons.1 mem
      · obtain rfl := (gives u).1 there
        exact ⟨(stream, a.2), rfl⟩
      · obtain rfl := List.mem_singleton.1 mem
        obtain rfl := (given u).1 there
        exact ⟨(a.1, v), required_eq_ok_iff.2 ⟨v, worth, rfl⟩⟩
    · rintro f mem -
      obtain rfl | mem := List.mem_cons.1 mem
      · exact .inr ⟨_, gives.mem⟩
      · obtain rfl := List.mem_singleton.1 mem
        exact .inr ⟨_, given.mem⟩
  obtain ⟨named, u, read_worth, there⟩ := valued_of_record room apart read
  have same : record.1 = stream := Tree.string.inj ((gives _).1 named.mem)
  obtain rfl := (given u).1 there.mem
  have same_value : record.2 = v := Except.ok.inj (read_worth.symm.trans worth)
  refine Outcome.map_eq_ok_iff.2 ⟨record, read, ?_⟩
  show change record.1 (command record.2) = _
  rw [same, same_value]

end

end

/-! ## All commands -/

section

variable {p : Place} {members before after : List (String × Tree)} {c : ScopeCommand} {stream : String}
  {command : StreamCommand}

theorem fieldsIn_plain (plain : command.field? = none) (gives : Gives members "stream" (.string stream)) :
    (change stream command).FieldsIn members := by
  refine ⟨gives, fun field valued => ?_⟩
  rw [plain] at valued
  cases valued

theorem fieldsIn_valued {field : String} {t : Tree} (valued : command.field? = some field)
    (gives : Gives members "stream" (.string stream)) (tells : command.Tells t) (given : Gives members field t) :
    (change stream command).FieldsIn members := by
  refine ⟨gives, fun other same => ?_⟩
  obtain rfl := Option.some.inj (valued.symm.trans same)
  exact ⟨t, tells, given⟩

/-- A reader finds the command of its name that the object tells. -/
theorem of_reader {name : String} {reader : Read ScopeCommand} (held : p.held = true) (room : 2 ≤ p.levels)
    (mem : (name, reader) ∈ readers) (answer : reader p (.object members) = .ok c) :
    c.name = name ∧ c.InRange ∧ c.FieldsIn members := by
  have outer : p.levels ≠ 0 := by omega
  have inner : p.levels - 1 ≠ 0 := by omega
  have palettes {palette : Palette} {t : Tree} :=
    @Palette.read_eq_ok_iff { p with levels := p.levels - 1 } t held inner palette
  have modes {mode : DisplayMode} {t : Tree} :=
    @DisplayMode.read_eq_ok_iff { p with levels := p.levels - 1 } t held inner mode
  have plain {command : StreamCommand} (none : command.field? = none)
      (answer : readPlain command p (.object members) = .ok c) :
      ∃ stream, c = change stream command ∧ c.FieldsIn members := by
    obtain ⟨stream, rfl, gives⟩ := of_readPlain outer answer
    exact ⟨stream, rfl, fieldsIn_plain none gives⟩
  simp only [readers, List.mem_cons, List.not_mem_nil, or_false, Prod.mk.injEq] at mem
  rcases mem with ⟨rfl, rfl⟩ | ⟨rfl, rfl⟩ | ⟨rfl, rfl⟩ | ⟨rfl, rfl⟩ | ⟨rfl, rfl⟩ | ⟨rfl, rfl⟩ | ⟨rfl, rfl⟩ | ⟨rfl, rfl⟩
    | ⟨rfl, rfl⟩
  case inl | inr.inl | inr.inr.inr.inr.inr.inr.inr.inl =>
    obtain ⟨stream, rfl, told⟩ := plain rfl answer
    exact ⟨rfl, trivial, told⟩
  · obtain ⟨stream, n, t, rfl, gives, worth, given⟩ := of_readValued outer (by decide) answer
    exact ⟨rfl, trivial, fieldsIn_valued rfl gives (FftLength.read_eq_ok_iff.1 worth) given⟩
  · obtain ⟨stream, palette, t, rfl, gives, worth, given⟩ := of_readValued outer (by decide) answer
    exact ⟨rfl, trivial, fieldsIn_valued rfl gives (palettes.1 worth) given⟩
  · obtain ⟨stream, mode, t, rfl, gives, worth, given⟩ := of_readValued outer (by decide) answer
    exact ⟨rfl, trivial, fieldsIn_valued rfl gives (modes.1 worth) given⟩
  · obtain ⟨stream, enabled, t, rfl, gives, worth, given⟩ := of_readValued outer (by decide) answer
    exact ⟨rfl, trivial, fieldsIn_valued rfl gives (readBool_eq_ok_iff.1 worth) given⟩
  · obtain ⟨stream, every, t, rfl, gives, worth, given⟩ := of_readValued outer (by decide) answer
    obtain ⟨whole, le⟩ := (readNat_eq_ok_iff (by decide)).1 worth
    exact ⟨rfl, le, fieldsIn_valued rfl gives whole given⟩
  · obtain ⟨-, -, rfl⟩ := Outcome.map_eq_ok_iff.1 answer
    exact ⟨rfl, trivial, trivial⟩

/-- Every command has a reader, which finds it in every object that tells it. -/
theorem exists_reader {levels : Nat} (held : p.held = true) (room : 2 ≤ p.levels) (range : c.InRange)
    (nodup : (members.map Prod.fst).Nodup) (kept : ∀ m ∈ members, m.2.isKept levels = true)
    (told : c.FieldsIn members) :
    ∃ reader, choose readers c.name = .ok reader ∧ reader p (.object members) = .ok c := by
  have outer : p.levels ≠ 0 := by omega
  have inner : p.levels - 1 ≠ 0 := by omega
  have palettes {palette : Palette} {t : Tree} :=
    @Palette.read_eq_ok_iff { p with levels := p.levels - 1 } t held inner palette
  have modes {mode : DisplayMode} {t : Tree} :=
    @DisplayMode.read_eq_ok_iff { p with levels := p.levels - 1 } t held inner mode
  cases c with
  | quit => exact ⟨_, rfl, rfl⟩
  | change stream command =>
    obtain ⟨gives, value⟩ := told
    cases command with
    | enable => exact ⟨_, rfl, readPlain_of_gives outer nodup kept gives⟩
    | disable => exact ⟨_, rfl, readPlain_of_gives outer nodup kept gives⟩
    | clearWaterfall => exact ⟨_, rfl, readPlain_of_gives outer nodup kept gives⟩
    | setFftLength n =>
      obtain ⟨t, tells, given⟩ := value _ rfl
      exact ⟨_, rfl, readValued_of_gives outer (by decide) nodup kept gives (FftLength.read_eq_ok_iff.2 tells) given⟩
    | setPalette palette =>
      obtain ⟨t, tells, given⟩ := value _ rfl
      exact ⟨_, rfl, readValued_of_gives outer (by decide) nodup kept gives (palettes.2 tells) given⟩
    | setMode mode =>
      obtain ⟨t, tells, given⟩ := value _ rfl
      exact ⟨_, rfl, readValued_of_gives outer (by decide) nodup kept gives (modes.2 tells) given⟩
    | setWaterfall enabled =>
      obtain ⟨t, tells, given⟩ := value _ rfl
      exact ⟨_, rfl, readValued_of_gives outer (by decide) nodup kept gives (readBool_eq_ok_iff.2 tells) given⟩
    | setCadence every =>
      obtain ⟨t, tells, given⟩ := value _ rfl
      exact ⟨_, rfl, readValued_of_gives outer (by decide) nodup kept gives
        ((readNat_eq_ok_iff (by decide)).2 ⟨tells, range⟩) given⟩

/-- No field goes by the name of the tag. -/
theorem ne_cmd_of_field? {field : String} (valued : command.field? = some field) : field ≠ "cmd" := by
  rintro rfl
  cases command <;> simp [StreamCommand.field?] at valued

/-- The tag itself is no field. -/
theorem fieldsIn_beside {u : Tree} : c.FieldsIn (before ++ ("cmd", u) :: after) ↔ c.FieldsIn (before ++ after) := by
  cases c with
  | quit => exact Iff.rfl
  | change stream command =>
    refine and_congr (gives_beside (by decide)) (forall₂_congr fun field valued => ?_)
    exact exists_congr fun t => and_congr_right fun _ => gives_beside (ne_cmd_of_field? valued)

/-- What is read from an object is a command that the object tells. -/
theorem of_read (room : 2 ≤ p.levels) (answer : read p (.object members) = .ok c) :
    c.InRange ∧ c.ToldBy members := by
  obtain ⟨⟨reader, rest⟩, split, answer⟩ := Outcome.bind_eq_ok_iff.1 answer
  obtain ⟨before, name, after, rfl, chosen, rfl, beside⟩ := (splitTag_eq_ok_iff (by omega)).1 split
  obtain ⟨earlier, later, parts, -⟩ := List.lookup_eq_some_iff.1 (choose_eq_ok_iff.1 chosen)
  have mem : (name, reader) ∈ readers := parts ▸ List.mem_append_right earlier List.mem_cons_self
  obtain ⟨rfl, range, told⟩ := of_reader (p := { p with held := true }) rfl room mem answer
  exact ⟨range, gives_tag fun m mem => (beside m mem).1, fieldsIn_beside.2 told⟩

/-- A command is read from every object that tells it. -/
theorem read_of_told (room : 2 ≤ p.levels) (range : c.InRange) (nodup : (members.map Prod.fst).Nodup)
    (kept : ∀ m ∈ members, m.2.isKept (p.levels - 1) = true) (told : c.ToldBy members) :
    read p (.object members) = .ok c := by
  obtain ⟨before, after, rfl⟩ := List.append_of_mem told.1.mem
  have without : (before ++ after).Sublist (before ++ ("cmd", .string c.name) :: after) :=
    List.Sublist.append_left (List.sublist_cons_self _ _) before
  have kept_without (m : String × Tree) (mem : m ∈ before ++ after) := kept m (without.subset mem)
  have apart (m : String × Tree) (mem : m ∈ before ++ after) : m.1 ≠ "cmd" := by
    rw [List.map_append, List.map_cons, List.nodup_middle, List.nodup_cons, ← List.map_append] at nodup
    exact fun same => nodup.1 (List.mem_map.2 ⟨m, mem, same⟩)
  obtain ⟨reader, chosen, answer⟩ := exists_reader (p := { p with held := true }) rfl room range
    (nodup.sublist (without.map Prod.fst)) kept_without (fieldsIn_beside.1 told.2)
  refine Outcome.bind_eq_ok_iff.2 ⟨(reader, .object (before ++ after)), ?_, answer⟩
  exact (splitTag_eq_ok_iff (by omega)).2
    ⟨before, c.name, after, rfl, chosen, rfl, fun m mem => ⟨apart m mem, kept_without m mem⟩⟩

/-- The fields of the commands by name. -/
def fieldTable : List (String × List String) :=
  [("enable", ["stream"]), ("disable", ["stream"]), ("set_fft_length", ["stream", "length"]),
   ("set_palette", ["stream", "palette"]), ("set_mode", ["stream", "mode"]), ("set_waterfall", ["stream", "enabled"]),
   ("set_cadence", ["stream", "every"]), ("clear_waterfall", ["stream"]), ("quit", [])]

theorem lookup_fieldTable (c : ScopeCommand) : fieldTable.lookup c.name = some c.fields := by
  cases c with
  | quit => rfl
  | change stream command => cases command <;> rfl

/-- Commands of one name have the same fields. -/
theorem fields_of_name {d : ScopeCommand} (same : c.name = d.name) : c.fields = d.fields :=
  Option.some.inj ((lookup_fieldTable c).symm.trans (same ▸ lookup_fieldTable d))

/-- An object that tells a command gives all its fields. -/
theorem ToldBy.exists_mem (told : c.ToldBy members) {field : String} (mem : field ∈ c.fields) :
    ∃ t, (field, t) ∈ members := by
  cases c with
  | quit => exact absurd mem List.not_mem_nil
  | change stream command =>
    rcases List.mem_cons.1 mem with rfl | mem
    · exact ⟨_, told.2.1.mem⟩
    · obtain ⟨t, -, gives⟩ := told.2.2 field (Option.mem_toList.1 mem)
      exact ⟨t, gives.mem⟩

/-- The length that an object gives is one of the menu. -/
theorem ToldBy.length (told : c.ToldBy members) (name : c.name = "set_fft_length") {t : Tree}
    (mem : ("length", t) ∈ members) : ∃ n : FftLength, t.IsNat n.points := by
  cases c with
  | quit => simp [ScopeCommand.name] at name
  | change stream command =>
    cases command with
    | setFftLength n =>
      obtain ⟨u, tells, gives⟩ := told.2.2 "length" rfl
      obtain rfl := (gives t).1 mem
      exact ⟨n, tells⟩
    | _ => simp [ScopeCommand.name, StreamCommand.name] at name

end

section

variable {text : String} {members : List (String × Tree)} {c : ScopeCommand}

/-- What is parsed from a text that holds an object is a command that the object tells. -/
theorem told_of_parse (root : (Document.ofText text).root = .object members) (answer : parse text = .ok c) :
    c.InRange ∧ c.ToldBy members :=
  of_read (by decide) (root ▸ read_of_decode answer)

/-- An object with distinct names, in any spelling and within the limits, is the command that it tells. -/
theorem parse_eq_ok_iff (spelled : BetweenBlanks (Tree.object members).SpelledAs text.toList)
    (nodup : (members.map Prod.fst).Nodup) (limits : (Tree.object members).WithinLimits Place.top.levels) :
    parse text = .ok c ↔ c.InRange ∧ c.ToldBy members := by
  constructor
  · exact told_of_parse (by rw [ofText_spelled spelled])
  · rintro ⟨range, told⟩
    obtain ⟨_, v, _, _, value, _, _⟩ := id spelled
    have kept := limits.isKept value
    rw [Tree.isKept, Bool.and_eq_true, haveKept_iff] at kept
    unfold parse
    rw [decode_spelled read spelled]
    exact read_of_told (by decide) range nodup kept.2 told

end

end ScopeCommand

/-- **The command of a text is the one that its object tells**, wherever in the object its tag and its fields stand, and
whatever else the object holds. Without the tag of a command, without one of the fields of that command and with a
length that is not on the menu there is none. -/
theorem command_texts (text : String) (members : List (String × Tree)) :
    (BetweenBlanks (Tree.object members).SpelledAs text.toList → (members.map Prod.fst).Nodup →
        (Tree.object members).WithinLimits Place.top.levels →
        ∀ c : ScopeCommand, ScopeCommand.parse text = .ok c ↔ c.InRange ∧ c.ToldBy members)
      ∧ ((Document.ofText text).root = .object members →
        ((∀ c : ScopeCommand, ("cmd", .string c.name) ∉ members)
          ∨ (∃ c : ScopeCommand, ("cmd", .string c.name) ∈ members ∧ ∃ field ∈ c.fields, ∀ t, (field, t) ∉ members)
          ∨ (("cmd", .string "set_fft_length") ∈ members
            ∧ ∃ t, ("length", t) ∈ members ∧ ∀ n : FftLength, ¬t.IsNat n.points)) →
        ∃ fault, ScopeCommand.parse text = .error fault) := by
  refine ⟨fun spelled nodup limits c => ScopeCommand.parse_eq_ok_iff spelled nodup limits, fun root refused => ?_⟩
  rw [Outcome.exists_error_iff]
  rintro ⟨c, answer⟩
  have told := (ScopeCommand.told_of_parse root answer).2
  have name (other : String) (tag : ("cmd", .string other) ∈ members) : other = c.name :=
    Tree.string.inj ((told.1 _).1 tag)
  rcases refused with unknown | ⟨d, tag, field, mem, missing⟩ | ⟨tag, t, mem, unlisted⟩
  · exact unknown c told.1.mem
  · rw [ScopeCommand.fields_of_name (name d.name tag)] at mem
    obtain ⟨t, there⟩ := told.exists_mem mem
    exact missing t there
  · obtain ⟨n, listed⟩ := told.length (name _ tag).symm mem
    exact unlisted n listed

/-! ## Two objects -/

/-- The members of a change of length with the tag behind them, and with one more that nobody asks for. -/
def shuffledMembers (length : Nat) : List (String × Tree) :=
  [("length", .ofNat length), ("note", .array [.null, .ofNat 7]), ("stream", .string "raw"),
   ("cmd", .string "set_fft_length")]

theorem writable_shuffledMembers (length : Nat) : (Tree.object (shuffledMembers length)).Writable :=
  ⟨writable_ofNat length, ⟨trivial, writable_ofNat 7, trivial⟩, trivial, trivial, trivial⟩

/-- With a length of the menu they are a command, on many lines, and with another one they are none. -/
theorem command_texts_shuffled :
    ScopeCommand.parse ("\x7b\n  \"length\": 4096,\n  \"note\": [\n    null,\n    7\n  ],\n  \"stream\": \"raw\",\n"
        ++ "  \"cmd\": \"set_fft_length\"\n\x7d")
      = .ok (.change "raw" (.setFftLength ⟨12, by decide, by decide⟩))
    ∧ ∃ fault, ScopeCommand.parse
      "\x7b\"length\":1000,\"note\":[null,7],\"stream\":\"raw\",\"cmd\":\"set_fft_length\"\x7d" = .error fault := by
  have lines : "\x7b\n  \"length\": 4096,\n  \"note\": [\n    null,\n    7\n  ],\n  \"stream\": \"raw\",\n"
      ++ "  \"cmd\": \"set_fft_length\"\n\x7d" = (Tree.object (shuffledMembers 4096)).pretty := by decide +kernel
  have line : "\x7b\"length\":1000,\"note\":[null,7],\"stream\":\"raw\",\"cmd\":\"set_fft_length\"\x7d"
      = (Tree.object (shuffledMembers 1000)).compact := by decide +kernel
  have nodup (length : Nat) : ((shuffledMembers length).map Prod.fst).Nodup := by
    show ["length", "note", "stream", "cmd"].Nodup
    decide
  rw [lines, line]
  constructor
  · have limits : (Tree.object (shuffledMembers 4096)).WithinLimits Place.top.levels := ⟨by decide, by decide +kernel⟩
    have tag : Gives (shuffledMembers 4096) "cmd" (.string "set_fft_length") :=
      gives_of_mem (nodup 4096) (.tail _ (.tail _ (.tail _ (.head _))))
    have stream : Gives (shuffledMembers 4096) "stream" (.string "raw") :=
      gives_of_mem (nodup 4096) (.tail _ (.tail _ (.head _)))
    have length : Gives (shuffledMembers 4096) "length" (.ofNat 4096) := gives_of_mem (nodup 4096) (.head _)
    exact ((command_texts _ (shuffledMembers 4096)).1 (spaced_pretty (writable_shuffledMembers 4096)) (nodup 4096)
      limits _).2 ⟨trivial, tag, ScopeCommand.fieldsIn_valued rfl stream (isNat_ofNat 4096) length⟩
  · have root : (Document.ofText (Tree.object (shuffledMembers 1000)).compact).root
        = .object (shuffledMembers 1000) := by
      rw [ofText_spelled (spaced_compact (writable_shuffledMembers 1000))]
    refine (command_texts _ (shuffledMembers 1000)).2 root
      (.inr (.inr ⟨.tail _ (.tail _ (.tail _ (.head _))), _, .head _, fun n listed => ?_⟩))
    have length : FftLength.ofPoints? 1000 = .ok n := by
      rw [← listed.unique (isNat_ofNat 1000)]
      exact n.ofPoints?_points
    cases length

end Panadapter
