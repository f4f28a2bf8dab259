import Panadapter.Json.Printer
import Panadapter.Proofs.Json.Spellings

/-!
# Documents, written and read

A value of which no part is lost (`Tree.Writable`) is written in one of its spellings, in either form
(`spelledAs_write`). So a decoder makes of its text what it makes of the value (`decode_compact`, `decode_pretty`,
`decode_pretty_line`).
-/

namespace Panadapter.Json

/-! ## Strings -/

theorem hexValue?_hexDigit {n : Nat} (lt : n < 16) : hexValue? (hexDigit n) = some n := by
  have each : ∀ k < 16, hexValue? (hexDigit k) = some k := by decide
  exact each n lt

/-- A control character is told by the last two of its four digits. -/
theorem unitOf?_control {n : Nat} (lt : n < 32) : unitOf? '0' '0' (hexDigit (n / 16)) (hexDigit (n % 16)) = some n := by
  unfold unitOf?
  rw [hexValue?_hexDigit (by omega), hexValue?_hexDigit (by omega)]
  show some (((0 * 16 + 0) * 16 + n / 16) * 16 + n % 16) = some n
  congr 1
  omega

theorem whole_control {n : Nat} (lt : n < 32) : (leads n || trails n) = false := by
  grind [leads, trails]

/-- The three forms of a character in a string: with a letter of its own, with its number, or as it is. -/
theorem escape_forms (c : Char) :
    (∃ e, escaped? e = some c ∧ escape c = ['\\', e])
    ∨ (c.toNat < 32 ∧ escape c = ['\\', 'u', '0', '0', hexDigit (c.toNat / 16), hexDigit (c.toNat % 16)])
    ∨ c ≠ '"' ∧ c ≠ '\\' ∧ ¬ c < ' ' ∧ escape c = [c] := by
  unfold escape
  split
  · next same => exact .inl ⟨'"', by rw [same]; rfl, rfl⟩
  split
  · next same => exact .inl ⟨'\\', by rw [same]; rfl, rfl⟩
  split
  · next same => exact .inl ⟨'b', by rw [same]; rfl, rfl⟩
  split
  · next same => exact .inl ⟨'f', by rw [same]; rfl, rfl⟩
  split
  · next same => exact .inl ⟨'n', by rw [same]; rfl, rfl⟩
  split
  · next same => exact .inl ⟨'r', by rw [same]; rfl, rfl⟩
  split
  · next same => exact .inl ⟨'t', by rw [same]; rfl, rfl⟩
  split
  · next control => exact .inr (.inl ⟨control, rfl⟩)
  · next quote slash _ _ _ _ _ above => exact .inr (.inr ⟨quote, slash, above, rfl⟩)

theorem spellsText_escape (cs : List Char) : SpellsText cs (cs.flatMap escape) := by
  induction cs with
  | nil => exact .nil
  | cons c cs ih =>
    rw [List.flatMap_cons]
    rcases escape_forms c with ⟨e, short, form⟩ | ⟨control, form⟩ | ⟨quote, slash, above, form⟩
    · rw [form]
      exact .short short ih
    · have spelled := SpellsText.unit (unitOf?_control control) (whole_control control) ih
      rw [Char.ofNat_toNat] at spelled
      rw [form]
      exact spelled
    · rw [form]
      exact .plain quote slash above ih

/-! ## Blanks -/

/-- What stands between the parts of a value is blank. -/
structure Spacing.Blank (sp : Spacing) : Prop where
  lineBreak : ∀ depth, AllBlank (sp.lineBreak depth)
  afterColon : AllBlank sp.afterColon

theorem Spacing.blank_compact : Spacing.compact.Blank where
  lineBreak _ _ mem := absurd mem List.not_mem_nil
  afterColon _ mem := absurd mem List.not_mem_nil

theorem Spacing.blank_pretty : Spacing.pretty.Blank where
  lineBreak depth c mem := by
    rcases List.mem_cons.1 mem with rfl | mem
    · rfl
    · rw [List.eq_of_mem_replicate mem]
      rfl
  afterColon := by
    rintro _ (_ | ⟨_, ⟨⟩⟩)
    rfl

/-! ## Values -/

namespace Tree

mutual

/-- Whether a value has a text of its own: no part of it was lost, and its numerals are of the grammar. -/
def Writable : Tree → Prop
  | number n => n.Grammatical
  | array items => AllWritable items
  | object members => HaveWritable members
  | null => True
  | bool _ => True
  | string _ => True
  | surrogate => False
  | nameless _ => False
  | broken => False
  | cut => False

/-- Whether every item is writable. -/
def AllWritable : List Tree → Prop
  | [] => True
  | t :: rest => t.Writable ∧ AllWritable rest

/-- Whether the value of every member is writable. -/
def HaveWritable : List (String × Tree) → Prop
  | [] => True
  | (_, t) :: rest => t.Writable ∧ HaveWritable rest

end

end Tree

section

variable {sp : Spacing}

/-- The text of a value spells it at any depth. -/
def Tree.WrittenAsSpelled (sp : Spacing) (t : Tree) : Prop := ∀ depth, t.SpelledAs (t.write sp depth)

/-- Items in front of blanks are spelled by their texts. -/
def ItemsWritten (sp : Spacing) (items : List Tree) : Prop :=
  ∀ t : Tree, t.WrittenAsSpelled sp → ∀ depth bs bs', AllBlank bs → AllBlank bs' →
    SpellsItems (t :: items) (bs ++ (t.write sp depth ++ (Tree.writeItems sp depth items ++ bs')))

/-- Members in front of blanks are spelled by their texts. -/
def MembersWritten (sp : Spacing) (members : List (String × Tree)) : Prop :=
  ∀ (name : String) (t : Tree), t.WrittenAsSpelled sp → ∀ depth bs bs', AllBlank bs → AllBlank bs' →
    SpellsMembers ((name, t) :: members) (bs ++ (quote name ++ (':' :: (sp.afterColon ++ (t.write sp depth
      ++ (Tree.writeMembers sp depth members ++ bs'))))))

theorem itemsWritten_nil : ItemsWritten sp [] :=
  fun t spelled depth bs bs' blank blank' => ⟨bs, t.write sp depth, bs', blank, spelled depth, blank', rfl⟩

theorem itemsWritten_cons (blank : sp.Blank) {u : Tree} {items : List Tree} (next : u.WrittenAsSpelled sp)
    (others : ItemsWritten sp items) : ItemsWritten sp (u :: items) := by
  intro t spelled depth bs bs' before behind
  refine ⟨_, _, ⟨bs, t.write sp depth, [], before, spelled depth, allBlank_nil, rfl⟩,
    others u next depth (sp.lineBreak depth) bs' (blank.lineBreak depth) behind, ?_⟩
  simp only [Tree.writeItems, List.append_assoc, List.cons_append, List.nil_append]

theorem written_array (blank : sp.Blank) {t : Tree} {items : List Tree} (first : t.WrittenAsSpelled sp)
    (others : ItemsWritten sp items) : (Tree.array (t :: items)).WrittenAsSpelled sp := by
  intro depth
  refine ⟨_, others t first (depth + 1) _ _ (blank.lineBreak (depth + 1)) (blank.lineBreak depth), ?_⟩
  simp only [Tree.write, List.append_assoc, List.cons_append]

theorem spellsMember_write (blank : sp.Blank) (name : String) {t : Tree} (spelled : t.WrittenAsSpelled sp)
    (depth : Nat) :
    SpellsMember name t.SpelledAs (quote name ++ (':' :: (sp.afterColon ++ t.write sp depth))) :=
  ⟨_, [], _, _, spellsText_escape name.toList, allBlank_nil, blank.afterColon, spelled depth, rfl⟩

theorem membersWritten_nil (blank : sp.Blank) : MembersWritten sp [] := by
  intro name t spelled depth bs bs' before behind
  refine ⟨bs, _, bs', before, spellsMember_write blank name spelled depth, behind, ?_⟩
  simp only [Tree.writeMembers, List.append_assoc, List.cons_append, List.nil_append]

theorem membersWritten_cons (blank : sp.Blank) (other : String) {u : Tree} {members : List (String × Tree)}
    (next : u.WrittenAsSpelled sp) (others : MembersWritten sp members) :
    MembersWritten sp ((other, u) :: members) := by
  intro name t spelled depth bs bs' before behind
  refine ⟨_, _, ⟨bs, _, [], before, spellsMember_write blank name spelled depth, allBlank_nil, rfl⟩,
    others other u next depth (sp.lineBreak depth) bs' (blank.lineBreak depth) behind, ?_⟩
  simp only [Tree.writeMembers, List.append_assoc, List.cons_append, List.nil_append]

theorem written_object (blank : sp.Blank) (name : String) {t : Tree} {members : List (String × Tree)}
    (first : t.WrittenAsSpelled sp) (others : MembersWritten sp members) :
    (Tree.object ((name, t) :: members)).WrittenAsSpelled sp := by
  intro depth
  refine ⟨_, others name t first (depth + 1) _ _ (blank.lineBreak (depth + 1)) (blank.lineBreak depth), ?_⟩
  simp only [Tree.write, List.append_assoc, List.cons_append]

mutual

/-- **A value is spelled by its text**, whatever stands between its parts as long as it is blank. -/
theorem spelledAs_write (blank : sp.Blank) : ∀ t : Tree, t.Writable → t.WrittenAsSpelled sp
  | .null, _ => fun _ => rfl
  | .bool true, _ => fun _ => rfl
  | .bool false, _ => fun _ => rfl
  | .number _, writable => fun _ => spellsNumeral_text writable
  | .string s, _ => fun _ => ⟨_, spellsText_escape s.toList, rfl⟩
  | .array [], _ => fun _ => ⟨[], allBlank_nil, rfl⟩
  | .array (t :: items), writable =>
    written_array blank (spelledAs_write blank t writable.1) (itemsWritten blank items writable.2)
  | .object [], _ => fun _ => ⟨[], allBlank_nil, rfl⟩
  | .object ((name, t) :: members), writable =>
    written_object blank name (spelledAs_write blank t writable.1) (membersWritten blank members writable.2)

/-- Items are spelled by their texts. -/
theorem itemsWritten (blank : sp.Blank) : ∀ items : List Tree, Tree.AllWritable items → ItemsWritten sp items
  | [], _ => itemsWritten_nil
  | t :: items, writable =>
    itemsWritten_cons blank (spelledAs_write blank t writable.1) (itemsWritten blank items writable.2)

/-- Members are spelled by their texts. -/
theorem membersWritten (blank : sp.Blank) :
    ∀ members : List (String × Tree), Tree.HaveWritable members → MembersWritten sp members
  | [], _ => membersWritten_nil blank
  | (name, t) :: members, writable =>
    membersWritten_cons blank name (spelledAs_write blank t writable.1) (membersWritten blank members writable.2)

end

/-! ## Whole texts -/

/-- The text of a value spells it, with blanks behind it. -/
theorem spaced_write (blank : sp.Blank) {t : Tree} (writable : t.Writable) {bs : List Char} (blanks : AllBlank bs) :
    BetweenBlanks t.SpelledAs (String.ofList (t.write sp 0 ++ bs)).toList := by
  refine ⟨[], _, bs, allBlank_nil, spelledAs_write blank t writable 0, blanks, ?_⟩
  rw [String.toList_ofList, List.nil_append]

end

/-! The texts that are written: on one line, on several lines, and on several lines with a line break at the end. What a
decoder makes of a value, it makes of each of them. -/

section

variable {α : Type} (read : Read α) {t : Tree}

theorem spaced_compact (writable : t.Writable) : BetweenBlanks t.SpelledAs t.compact.toList := by
  have spaced := spaced_write Spacing.blank_compact writable allBlank_nil
  rwa [List.append_nil] at spaced

theorem spaced_pretty (writable : t.Writable) : BetweenBlanks t.SpelledAs t.pretty.toList := by
  have spaced := spaced_write Spacing.blank_pretty writable allBlank_nil
  rwa [List.append_nil] at spaced

theorem spaced_pretty_line (writable : t.Writable) : BetweenBlanks t.SpelledAs (t.pretty ++ "\n").toList := by
  have line : AllBlank ['\n'] := by
    rintro _ (_ | ⟨_, ⟨⟩⟩)
    rfl
  have spaced := spaced_write Spacing.blank_pretty writable line
  rwa [String.ofList_append] at spaced

theorem decode_compact (writable : t.Writable) : decode read t.compact = read .top t :=
  decode_spelled read (spaced_compact writable)

theorem decode_pretty (writable : t.Writable) : decode read t.pretty = read .top t :=
  decode_spelled read (spaced_pretty writable)

theorem decode_pretty_line (writable : t.Writable) : decode read (t.pretty ++ "\n") = read .top t :=
  decode_spelled read (spaced_pretty_line writable)

end

end Panadapter.Json
