import Mathlib.Data.List.TakeWhile
import Panadapter.Json.Decode
import Panadapter.Proofs.Json.Numerals

/-!
# Spellings

A value has many texts. Blanks may stand around its parts, a character of a string may be escaped in several ways, and
numerals differ in how the power of ten is written. Of whatever spelling, the reader makes the value.

* A string is scanned from behind its opening quote to its closing one (`scanString_append`).
* A value is read in front of anything that leaves a numeral alone (`isRead`). The induction is over the value; the fuel
  that it carries is one for each character of the text.
* So a text that spells a value with blanks around it is a document of that value and nothing else (`ofText_spelled`).
-/

namespace Panadapter.Json

/-! ## Strings -/

/-- The spellings of a text inside quotes: each character as it is, by a letter of its own or by its number, in two
halves if it takes them. -/
inductive SpellsText : List Char → List Char → Prop where
  | nil : SpellsText [] []
  | plain {c : Char} {s cs : List Char} (quote : c ≠ '"') (slash : c ≠ '\\') (above : ¬ c < ' ')
    (rest : SpellsText s cs) : SpellsText (c :: s) (c :: cs)
  | short {e c : Char} {s cs : List Char} (short : escaped? e = some c) (rest : SpellsText s cs) :
    SpellsText (c :: s) ('\\' :: e :: cs)
  | unit {a b c d : Char} {u : Nat} {s cs : List Char} (unit : unitOf? a b c d = some u)
    (whole : (leads u || trails u) = false) (rest : SpellsText s cs) :
    SpellsText (Char.ofNat u :: s) ('\\' :: 'u' :: a :: b :: c :: d :: cs)
  | pair {a b c d a' b' c' d' : Char} {u v : Nat} {s cs : List Char} (first : unitOf? a b c d = some u)
    (lead : leads u = true) (second : unitOf? a' b' c' d' = some v) (trail : trails v = true)
    (rest : SpellsText s cs) : SpellsText (pairChar u v :: s)
      ('\\' :: 'u' :: a :: b :: c :: d :: '\\' :: 'u' :: a' :: b' :: c' :: d' :: cs)

/-- What is scanned with a character in front of it. -/
def behind (c : Char) (scanned : Option (List Piece × List Char)) : Option (List Piece × List Char) :=
  scanned.map fun (pieces, after) => (.char c :: pieces, after)

/-- A short escape is scanned as the character it stands for. -/
theorem scanPieces_short {e c : Char} (short : escaped? e = some c) (rest : List Char) :
    scanPieces ('\\' :: e :: rest) = behind c (scanPieces rest) := by
  rw [scanPieces, short]
  · cases scanPieces rest <;> rfl
  · rintro _ _ _ _ _ rfl _
    cases short

theorem scanPieces_plain {c : Char} (quote : c ≠ '"') (slash : c ≠ '\\') (above : ¬ c < ' ') (rest : List Char) :
    scanPieces (c :: rest) = behind c (scanPieces rest) := by
  rw [scanPieces]
  · rw [if_neg (by simp only [above, slash, or_self, not_false_eq_true])]
    cases scanPieces rest <;> rfl
  · exact quote
  · exact fun _ _ _ _ _ same _ => slash same
  · exact fun _ _ same _ => slash same

theorem scanPieces_unit {a b c d : Char} {u : Nat} (unit : unitOf? a b c d = some u) (rest : List Char) :
    scanPieces ('\\' :: 'u' :: a :: b :: c :: d :: rest)
      = (scanPieces rest).map fun (pieces, after) => (Piece.ofUnit u :: pieces, after) := by
  rw [scanPieces, unit]
  cases scanPieces rest <;> rfl

/-- The pieces of a spelled text make it up again. -/
theorem SpellsText.scanPieces_append {s cs : List Char} (spelled : SpellsText s cs) (rest : List Char) :
    ∃ pieces, scanPieces (cs ++ '"' :: rest) = some (pieces, rest) ∧ joinPieces? pieces = some s := by
  induction spelled with
  | nil => exact ⟨[], scanPieces.eq_2 rest, rfl⟩
  | @plain c s cs quote slash above _ ih =>
    obtain ⟨pieces, scan, join⟩ := ih
    refine ⟨.char c :: pieces, ?_, ?_⟩
    · rw [List.cons_append, scanPieces_plain quote slash above, scan]
      rfl
    · rw [joinPieces?, join]
      rfl
  | @short e c s cs short _ ih =>
    obtain ⟨pieces, scan, join⟩ := ih
    refine ⟨.char c :: pieces, ?_, ?_⟩
    · rw [List.cons_append, List.cons_append, scanPieces_short short, scan]
      rfl
    · rw [joinPieces?, join]
      rfl
  | @unit a b c d u s cs unit whole _ ih =>
    obtain ⟨pieces, scan, join⟩ := ih
    refine ⟨.char (Char.ofNat u) :: pieces, ?_, ?_⟩
    · show scanPieces ('\\' :: 'u' :: a :: b :: c :: d :: (cs ++ '"' :: rest)) = _
      rw [scanPieces_unit unit, scan, Piece.ofUnit, whole]
      rfl
    · rw [joinPieces?, join]
      rfl
  | @pair a b c d a' b' c' d' u v s cs first lead second trail _ ih =>
    obtain ⟨pieces, scan, join⟩ := ih
    refine ⟨.half u :: .half v :: pieces, ?_, ?_⟩
    · show scanPieces ('\\' :: 'u' :: a :: b :: c :: d :: '\\' :: 'u' :: a' :: b' :: c' :: d'
        :: (cs ++ '"' :: rest)) = _
      rw [scanPieces_unit first, scanPieces_unit second, scan, Piece.ofUnit, Piece.ofUnit, lead, trail, Bool.true_or,
        Bool.or_true]
      rfl
    · rw [joinPieces?, lead, trail, join]
      rfl

/-- A string is scanned from behind its opening quote to its closing one. -/
theorem scanString_append {s cs : List Char} (spelled : SpellsText s cs) (rest : List Char) :
    scanString (cs ++ '"' :: rest) = some (some s, rest) := by
  obtain ⟨pieces, scan, join⟩ := spelled.scanPieces_append rest
  rw [scanString, scan]
  show some (joinPieces? pieces, rest) = _
  rw [join]

/-! ## Blanks -/

/-- Nothing but blanks. -/
def AllBlank (cs : List Char) : Prop := ∀ c ∈ cs, isBlank c = true

theorem dropBlanks_append {bs : List Char} (blank : AllBlank bs) (cs : List Char) :
    dropBlanks (bs ++ cs) = dropBlanks cs :=
  List.dropWhile_append_of_pos blank

theorem dropBlanks_cons {c : Char} (solid : isBlank c = false) (cs : List Char) : dropBlanks (c :: cs) = c :: cs :=
  List.dropWhile_cons_of_neg (by rw [solid]; decide)

theorem goesOn_of_isBlank {c : Char} (blank : isBlank c = true) : goesOn c = false := by
  simp only [isBlank, Bool.or_eq_true, beq_iff_eq] at blank
  rcases blank with ((rfl | rfl) | rfl) | rfl <;> rfl

/-- Behind blanks stands a character that leaves a numeral in front of the blanks alone. -/
theorem endsNumeral_blanks {bs : List Char} (blank : AllBlank bs) {cs : List Char} (ends : EndsNumeral cs) :
    EndsNumeral (bs ++ cs) := by
  cases bs with
  | nil => exact ends
  | cons b bs => exact endsNumeral_cons _ (goesOn_of_isBlank (blank b List.mem_cons_self))

theorem allBlank_nil : AllBlank [] := fun _ mem => absurd mem List.not_mem_nil

theorem readValue_blanks {bs : List Char} (blank : AllBlank bs) (fuel : Nat) (cs : List Char) :
    readValue fuel (bs ++ cs) = readValue fuel cs := by
  cases fuel with
  | zero => rw [readValue, readValue]
  | succ fuel => rw [readValue, readValue, dropBlanks_append blank]

theorem readItems_blanks {bs : List Char} (blank : AllBlank bs) (fuel : Nat) (cs : List Char) :
    readItems fuel (bs ++ cs) = readItems fuel cs := by
  cases fuel with
  | zero => rw [readItems, readItems]
  | succ fuel => rw [readItems, readItems, readValue_blanks blank]

theorem readMembers_blanks {bs : List Char} (blank : AllBlank bs) (fuel : Nat) (cs : List Char) :
    readMembers fuel (bs ++ cs) = readMembers fuel cs := by
  cases fuel with
  | zero => rw [readMembers, readMembers]
  | succ fuel => rw [readMembers, readMembers, dropBlanks_append blank]

/-! ## Values -/

/-- The quotes around the text of a string. -/
def inQuotes (inside : List Char) : List Char := '"' :: (inside ++ ['"'])

/-- A text with blanks around it. -/
def BetweenBlanks (spelled : List Char → Prop) (cs : List Char) : Prop :=
  ∃ bs v bs', AllBlank bs ∧ spelled v ∧ AllBlank bs' ∧ cs = bs ++ (v ++ bs')

/-- A name in quotes, a colon and a value behind it. -/
def SpellsMember (name : String) (spelled : List Char → Prop) (cs : List Char) : Prop :=
  ∃ inside bs bs' v, SpellsText name.toList inside ∧ AllBlank bs ∧ AllBlank bs' ∧ spelled v
    ∧ cs = inQuotes inside ++ (bs ++ ':' :: (bs' ++ v))

mutual

/-- The spellings of a value. What is no value of a sound text has none. -/
def Tree.SpelledAs : Tree → List Char → Prop
  | .null, cs => cs = ['n', 'u', 'l', 'l']
  | .bool true, cs => cs = ['t', 'r', 'u', 'e']
  | .bool false, cs => cs = ['f', 'a', 'l', 's', 'e']
  | .number n, cs => SpellsNumeral n cs
  | .string s, cs => ∃ inside, SpellsText s.toList inside ∧ cs = inQuotes inside
  | .array items, cs => ∃ inside, SpellsItems items inside ∧ cs = '[' :: (inside ++ [']'])
  | .object members, cs => ∃ inside, SpellsMembers members inside ∧ cs = '\x7b' :: (inside ++ ['\x7d'])
  | .surrogate, _ => False
  | .nameless _, _ => False
  | .broken, _ => False
  | .cut, _ => False

/-- The spellings of the items of an array, between the brackets. -/
def SpellsItems : List Tree → List Char → Prop
  | [], cs => AllBlank cs
  | [t], cs => BetweenBlanks t.SpelledAs cs
  | t :: u :: items, cs => ∃ first next, BetweenBlanks t.SpelledAs first ∧ SpellsItems (u :: items) next
      ∧ cs = first ++ ',' :: next

/-- The spellings of the members of an object, between the braces. -/
def SpellsMembers : List (String × Tree) → List Char → Prop
  | [], cs => AllBlank cs
  | [(name, t)], cs => BetweenBlanks (SpellsMember name t.SpelledAs) cs
  | (name, t) :: m :: members, cs => ∃ first next, BetweenBlanks (SpellsMember name t.SpelledAs) first
      ∧ SpellsMembers (m :: members) next ∧ cs = first ++ ',' :: next

end

theorem isBlank_of_starts {c : Char} (starts : c = '-' ∨ c.isDigit = true) : isBlank c = false := by
  rcases starts with rfl | digit
  · rfl
  · cases blank : isBlank c with
    | false => rfl
    | true =>
      have := goesOn_of_isBlank blank
      rw [goesOn, digit] at this
      cases this

theorem readValue_array {fuel : Nat} {cs inside rest : List Char} {items : List Tree} (solid : dropBlanks cs = inside)
    (unclosed : inside.head? ≠ some ']') (read : readItems fuel inside = (items, some rest)) :
    readValue (fuel + 1) ('[' :: cs) = (.array items, some rest) := by
  rw [readValue, dropBlanks_cons rfl]
  simp only [solid]
  split
  · exact absurd rfl unclosed
  · rw [read]

theorem readValue_object {fuel : Nat} {cs inside rest : List Char} {members : List (String × Tree)}
    (solid : dropBlanks cs = inside) (unclosed : inside.head? ≠ some '\x7d')
    (read : readMembers fuel inside = (members, some rest)) :
    readValue (fuel + 1) ('\x7b' :: cs) = (.object members, some rest) := by
  rw [readValue, dropBlanks_cons rfl]
  simp only [solid]
  split
  · exact absurd rfl unclosed
  · rw [read]

/-! ## One step of the reader -/

theorem dropBlanks_of_allBlank {bs : List Char} (blank : AllBlank bs) {c : Char} (solid : isBlank c = false)
    (rest : List Char) : dropBlanks (bs ++ c :: rest) = c :: rest := by
  rw [dropBlanks_append blank, dropBlanks_cons solid]

theorem readItems_dropBlanks (fuel : Nat) (cs : List Char) : readItems fuel (dropBlanks cs) = readItems fuel cs := by
  have blank : AllBlank (cs.takeWhile isBlank) := fun c mem => List.mem_takeWhile_imp mem
  conv_rhs => rw [← List.takeWhile_append_dropWhile (p := isBlank) (l := cs)]
  exact (readItems_blanks blank fuel _).symm

theorem readMembers_dropBlanks (fuel : Nat) (cs : List Char) :
    readMembers fuel (dropBlanks cs) = readMembers fuel cs := by
  have blank : AllBlank (cs.takeWhile isBlank) := fun c mem => List.mem_takeWhile_imp mem
  conv_rhs => rw [← List.takeWhile_append_dropWhile (p := isBlank) (l := cs)]
  exact (readMembers_blanks blank fuel _).symm

theorem readItems_last {fuel : Nat} {cs after rest : List Char} {t : Tree}
    (value : readValue fuel cs = (t, some after)) (close : dropBlanks after = ']' :: rest) :
    readItems (fuel + 1) cs = ([t], some rest) := by
  simp only [readItems, value, close]

theorem readItems_more {fuel : Nat} {cs after next rest : List Char} {t : Tree} {items : List Tree}
    (value : readValue fuel cs = (t, some after)) (comma : dropBlanks after = ',' :: next)
    (others : readItems fuel next = (items, some rest)) : readItems (fuel + 1) cs = (t :: items, some rest) := by
  simp only [readItems, value, comma, others]

section

variable {fuel : Nat} {name : String} {inside cs value after next rest : List Char} {t : Tree}
  {members : List (String × Tree)}

theorem inQuotes_append (inside rest : List Char) : inQuotes inside ++ rest = '"' :: (inside ++ '"' :: rest) := by
  rw [inQuotes, List.cons_append, List.append_assoc]
  rfl

theorem readMembers_last (spelled : SpellsText name.toList inside) (colon : dropBlanks cs = ':' :: value)
    (read : readValue fuel value = (t, some after)) (close : dropBlanks after = '\x7d' :: rest) :
    readMembers (fuel + 1) (inQuotes inside ++ cs) = ([(name, t)], some rest) := by
  rw [inQuotes_append, readMembers, dropBlanks_cons rfl]
  simp only [scanString_append spelled, colon, read, close, member, String.ofList_toList]

theorem readMembers_more (spelled : SpellsText name.toList inside) (colon : dropBlanks cs = ':' :: value)
    (read : readValue fuel value = (t, some after)) (comma : dropBlanks after = ',' :: next)
    (others : readMembers fuel next = (members, some rest)) :
    readMembers (fuel + 1) (inQuotes inside ++ cs) = ((name, t) :: members, some rest) := by
  rw [inQuotes_append, readMembers, dropBlanks_cons rfl]
  simp only [scanString_append spelled, colon, read, comma, others, member, String.ofList_toList]

end

theorem readValue_string {s : String} {inside : List Char} (spelled : SpellsText s.toList inside) (fuel : Nat)
    (rest : List Char) : readValue (fuel + 1) (inQuotes inside ++ rest) = (.string s, some rest) := by
  rw [inQuotes_append, readValue, dropBlanks_cons rfl]
  simp only [scanString_append spelled]
  show (Tree.string (String.ofList s.toList), some rest) = _
  rw [String.ofList_toList]

/-- What a numeral starts with. -/
theorem SpellsNumeral.starts {n : Decimal.Numeral} {cs : List Char} (spelled : SpellsNumeral n cs) :
    ∃ c more, cs = c :: more ∧ (c = '-' ∨ c.isDigit = true) := by
  obtain ⟨grammatical, power, -, rfl⟩ := spelled
  cases n.negative with
  | true => exact ⟨'-', _, rfl, .inl rfl⟩
  | false =>
    obtain ⟨d, more, whole⟩ := List.exists_cons_of_ne_nil grammatical.whole_ne_nil
    rw [whole]
    exact ⟨d, _, rfl, .inr (grammatical.whole d (by rw [whole]; exact List.mem_cons_self))⟩

/-- A numeral is told from the other values by the character it starts with. -/
theorem readValue_number (fuel : Nat) {n : Decimal.Numeral} {cs : List Char} (spelled : SpellsNumeral n cs)
    {rest : List Char} (ends : EndsNumeral rest) : readValue (fuel + 1) (cs ++ rest) = (.number n, some rest) := by
  have scan := scanNumeral_append spelled ends
  obtain ⟨c, more, rfl, starts⟩ := spelled.starts
  rw [List.cons_append] at scan ⊢
  rw [readValue, dropBlanks_cons (isBlank_of_starts starts)]
  split
  case h_7 => rw [scan]
  -- the other values start with characters of their own
  all_goals
    next same =>
      rw [(List.cons.inj same).1] at starts
      exact absurd starts (by decide)

/-- A value starts with a character that is neither blank nor a closing bracket. -/
theorem Tree.SpelledAs.starts {t : Tree} {cs : List Char} (spelled : t.SpelledAs cs) :
    ∃ c more, cs = c :: more ∧ isBlank c = false ∧ c ≠ ']' := by
  cases t with
  | null => exact ⟨'n', _, spelled, rfl, by decide⟩
  | bool b =>
    cases b with
    | true => exact ⟨'t', _, spelled, rfl, by decide⟩
    | false => exact ⟨'f', _, spelled, rfl, by decide⟩
  | number n =>
    obtain ⟨c, more, text, starts⟩ := SpellsNumeral.starts spelled
    refine ⟨c, more, text, isBlank_of_starts starts, ?_⟩
    rintro rfl
    exact absurd starts (by decide)
  | string s =>
    obtain ⟨inside, -, rfl⟩ := spelled
    exact ⟨'"', _, rfl, rfl, by decide⟩
  | array items =>
    obtain ⟨inside, -, rfl⟩ := spelled
    exact ⟨'[', _, rfl, rfl, by decide⟩
  | object members =>
    obtain ⟨inside, -, rfl⟩ := spelled
    exact ⟨'\x7b', _, rfl, rfl, by decide⟩
  | surrogate => exact spelled.elim
  | nameless value => exact spelled.elim
  | broken => exact spelled.elim
  | cut => exact spelled.elim

/-! ## Whole values -/

/-- A value is read from every spelling, in front of anything that leaves a numeral alone, with fuel for every character
of it. -/
def Tree.IsRead (t : Tree) : Prop :=
  ∀ cs, t.SpelledAs cs → ∀ fuel rest, EndsNumeral rest → cs.length ≤ fuel → readValue fuel (cs ++ rest) = (t, some rest)

/-- Items are read up to the closing bracket. -/
def ItemsAreRead (items : List Tree) : Prop :=
  ∀ cs, SpellsItems items cs → ∀ fuel rest, cs.length < fuel → readItems fuel (cs ++ ']' :: rest) = (items, some rest)

/-- Members are read up to the closing brace. -/
def MembersAreRead (members : List (String × Tree)) : Prop :=
  ∀ cs, SpellsMembers members cs → ∀ fuel rest, cs.length < fuel →
    readMembers fuel (cs ++ '\x7d' :: rest) = (members, some rest)

/-- Every spelling has a first character, so there is fuel for it. -/
theorem isRead_of_fuel {t : Tree} (read : ∀ cs, t.SpelledAs cs → ∀ fuel rest, EndsNumeral rest →
    cs.length ≤ fuel + 1 → readValue (fuel + 1) (cs ++ rest) = (t, some rest)) : t.IsRead := by
  intro cs spelled fuel rest ends enough
  obtain ⟨c, more, text, -, -⟩ := spelled.starts
  have some_text : 0 < cs.length := by
    rw [text]
    exact Nat.succ_pos _
  obtain ⟨fuel, rfl⟩ : ∃ k, fuel = k + 1 := ⟨fuel - 1, by omega⟩
  exact read cs spelled fuel rest ends enough

/-- Blanks in front of a value are passed over, those behind it are left. -/
theorem Tree.IsRead.spaced {t : Tree} (read : t.IsRead) {cs : List Char} (spaced : BetweenBlanks t.SpelledAs cs) :
    ∃ bs, AllBlank bs ∧ ∀ fuel rest, EndsNumeral rest → cs.length ≤ fuel →
      readValue fuel (cs ++ rest) = (t, some (bs ++ rest)) := by
  obtain ⟨bs, v, bs', before, spelled, behind, rfl⟩ := spaced
  refine ⟨bs', behind, fun fuel rest ends enough => ?_⟩
  rw [List.length_append, List.length_append] at enough
  rw [List.append_assoc, List.append_assoc, readValue_blanks before]
  exact read v spelled fuel _ (endsNumeral_blanks behind ends) (by omega)

theorem itemsAreRead_singleton {t : Tree} (read : t.IsRead) : ItemsAreRead [t] := by
  intro cs spelled fuel rest enough
  obtain ⟨fuel, rfl⟩ : ∃ k, fuel = k + 1 := ⟨fuel - 1, by omega⟩
  obtain ⟨bs, blank, value⟩ := read.spaced spelled
  exact readItems_last (value fuel _ (endsNumeral_cons rest rfl) (by omega)) (dropBlanks_of_allBlank blank rfl rest)

theorem itemsAreRead_cons {t u : Tree} {items : List Tree} (read : t.IsRead) (others : ItemsAreRead (u :: items)) :
    ItemsAreRead (t :: u :: items) := by
  rintro _ ⟨first, next, spelled, more, rfl⟩ fuel rest enough
  rw [List.length_append, List.length_cons] at enough
  obtain ⟨fuel, rfl⟩ : ∃ k, fuel = k + 1 := ⟨fuel - 1, by omega⟩
  obtain ⟨bs, blank, value⟩ := read.spaced spelled
  rw [List.append_assoc, List.cons_append]
  exact readItems_more (value fuel _ (endsNumeral_cons _ rfl) (by omega)) (dropBlanks_of_allBlank blank rfl _)
    (others next more fuel rest (by omega))

/-- The items of an array start with a value, which is no closing bracket. -/
theorem SpellsItems.unclosed {t : Tree} {items : List Tree} {cs : List Char} (spelled : SpellsItems (t :: items) cs)
    (rest : List Char) : (dropBlanks (cs ++ rest)).head? ≠ some ']' := by
  have first {cs : List Char} (spaced : BetweenBlanks t.SpelledAs cs) (rest : List Char) :
      (dropBlanks (cs ++ rest)).head? ≠ some ']' := by
    obtain ⟨bs, v, bs', before, value, -, rfl⟩ := spaced
    obtain ⟨c, more, rfl, solid, other⟩ := value.starts
    rw [List.append_assoc, List.cons_append, List.cons_append, dropBlanks_of_allBlank before solid]
    exact fun same => other (Option.some.inj same)
  cases items with
  | nil => exact first spelled rest
  | cons u items =>
    obtain ⟨head, next, spaced, -, rfl⟩ := spelled
    rw [List.append_assoc]
    exact first spaced _

theorem isRead_array {items : List Tree} (read : items ≠ [] → ItemsAreRead items) : (Tree.array items).IsRead := by
  refine isRead_of_fuel ?_
  rintro _ ⟨inside, spelled, rfl⟩ fuel rest ends enough
  rw [List.length_cons, List.length_append, List.length_singleton] at enough
  rw [List.cons_append, List.append_assoc, List.singleton_append]
  cases items with
  | nil =>
    rw [readValue, dropBlanks_cons rfl]
    simp only [dropBlanks_of_allBlank spelled (rfl : isBlank ']' = false)]
  | cons t items =>
    refine readValue_array rfl (SpellsItems.unclosed spelled _) ?_
    rw [readItems_dropBlanks]
    exact read (List.cons_ne_nil t items) inside spelled fuel rest (by omega)

/-- In a member, blanks behind it stand behind its value. -/
theorem BetweenBlanks.member {name : String} {spelled : List Char → Prop} {cs : List Char}
    (spaced : BetweenBlanks (SpellsMember name spelled) cs) :
    ∃ bs inside between value, AllBlank bs ∧ SpellsText name.toList inside ∧ AllBlank between
      ∧ BetweenBlanks spelled value ∧ cs = bs ++ (inQuotes inside ++ (between ++ ':' :: value)) := by
  obtain ⟨bs, _, bs', before, ⟨inside, between, front, v, name_text, blank, blank', value, rfl⟩, behind, rfl⟩ := spaced
  refine ⟨bs, inside, between, front ++ (v ++ bs'), before, name_text, blank,
    ⟨front, v, bs', blank', value, behind, rfl⟩, ?_⟩
  simp only [List.append_assoc, List.cons_append]

theorem membersAreRead_singleton (name : String) {t : Tree} (read : t.IsRead) : MembersAreRead [(name, t)] := by
  intro cs spelled fuel rest enough
  obtain ⟨fuel, rfl⟩ : ∃ k, fuel = k + 1 := ⟨fuel - 1, by omega⟩
  obtain ⟨bs, inside, between, value, before, name_text, blank, spaced, rfl⟩ := BetweenBlanks.member spelled
  obtain ⟨bs', behind, value_read⟩ := read.spaced spaced
  simp only [List.length_append, List.length_cons] at enough
  simp only [List.append_assoc, List.cons_append]
  rw [readMembers_blanks before]
  exact readMembers_last name_text (dropBlanks_of_allBlank blank rfl _)
    (value_read fuel _ (endsNumeral_cons rest rfl) (by omega)) (dropBlanks_of_allBlank behind rfl rest)

theorem membersAreRead_cons (name : String) {t : Tree} {m : String × Tree} {members : List (String × Tree)}
    (read : t.IsRead) (others : MembersAreRead (m :: members)) : MembersAreRead ((name, t) :: m :: members) := by
  rintro _ ⟨first, next, spelled, more, rfl⟩ fuel rest enough
  obtain ⟨fuel, rfl⟩ : ∃ k, fuel = k + 1 := ⟨fuel - 1, by omega⟩
  obtain ⟨bs, inside, between, value, before, name_text, blank, spaced, rfl⟩ := BetweenBlanks.member spelled
  obtain ⟨bs', behind, value_read⟩ := read.spaced spaced
  simp only [List.length_append, List.length_cons] at enough
  simp only [List.append_assoc, List.cons_append]
  rw [readMembers_blanks before]
  exact readMembers_more name_text (dropBlanks_of_allBlank blank rfl _)
    (value_read fuel _ (endsNumeral_cons _ rfl) (by omega)) (dropBlanks_of_allBlank behind rfl _)
    (others next more fuel rest (by omega))

/-- The members of an object start with a quote. -/
theorem SpellsMembers.unclosed {m : String × Tree} {members : List (String × Tree)} {cs : List Char}
    (spelled : SpellsMembers (m :: members) cs) (rest : List Char) :
    (dropBlanks (cs ++ rest)).head? ≠ some '\x7d' := by
  have first {cs : List Char} (spaced : BetweenBlanks (SpellsMember m.1 m.2.SpelledAs) cs) (rest : List Char) :
      (dropBlanks (cs ++ rest)).head? ≠ some '\x7d' := by
    obtain ⟨bs, inside, between, value, before, -, -, -, rfl⟩ := spaced.member
    rw [List.append_assoc, List.append_assoc, inQuotes_append, dropBlanks_of_allBlank before rfl]
    exact fun same => absurd (Option.some.inj same) (by decide)
  cases members with
  | nil => exact first spelled rest
  | cons m' members =>
    obtain ⟨head, next, spaced, -, rfl⟩ := spelled
    rw [List.append_assoc]
    exact first spaced _

theorem isRead_object {members : List (String × Tree)} (read : members ≠ [] → MembersAreRead members) :
    (Tree.object members).IsRead := by
  refine isRead_of_fuel ?_
  rintro _ ⟨inside, spelled, rfl⟩ fuel rest ends enough
  rw [List.length_cons, List.length_append, List.length_singleton] at enough
  rw [List.cons_append, List.append_assoc, List.singleton_append]
  cases members with
  | nil =>
    rw [readValue, dropBlanks_cons rfl]
    simp only [dropBlanks_of_allBlank spelled (rfl : isBlank '\x7d' = false)]
  | cons m members =>
    refine readValue_object rfl (SpellsMembers.unclosed spelled _) ?_
    rw [readMembers_dropBlanks]
    exact read (List.cons_ne_nil m members) inside spelled fuel rest (by omega)

mutual

/-- **A value is read from every spelling.** -/
theorem isRead : ∀ t : Tree, t.IsRead
  | .null => isRead_of_fuel fun _ spelled _ _ _ _ => by rw [show _ = _ from spelled, readValue]; rfl
  | .bool true => isRead_of_fuel fun _ spelled _ _ _ _ => by rw [show _ = _ from spelled, readValue]; rfl
  | .bool false => isRead_of_fuel fun _ spelled _ _ _ _ => by rw [show _ = _ from spelled, readValue]; rfl
  | .number _ => isRead_of_fuel fun _ spelled fuel _ ends _ => readValue_number fuel spelled ends
  | .string _ => isRead_of_fuel fun _ spelled fuel rest _ _ => by
    obtain ⟨inside, text, rfl⟩ := spelled
    exact readValue_string text fuel rest
  | .array items => isRead_array (itemsAreRead items)
  | .object members => isRead_object (membersAreRead members)
  | .surrogate => fun _ spelled => spelled.elim
  | .nameless _ => fun _ spelled => spelled.elim
  | .broken => fun _ spelled => spelled.elim
  | .cut => fun _ spelled => spelled.elim

theorem itemsAreRead : ∀ items : List Tree, items ≠ [] → ItemsAreRead items
  | [], some_item => absurd rfl some_item
  | [t], _ => itemsAreRead_singleton (isRead t)
  | t :: u :: items, _ => itemsAreRead_cons (isRead t) (itemsAreRead (u :: items) (List.cons_ne_nil u items))

theorem membersAreRead : ∀ members : List (String × Tree), members ≠ [] → MembersAreRead members
  | [], some_item => absurd rfl some_item
  | [(name, t)], _ => membersAreRead_singleton name (isRead t)
  | (name, t) :: m :: members, _ =>
    membersAreRead_cons name (isRead t) (membersAreRead (m :: members) (List.cons_ne_nil m members))

end

/-! ## Whole texts -/

/-- A text that spells a value with blanks around it is a document with that value and nothing else. -/
theorem ofText_spelled {t : Tree} {text : String} (spelled : BetweenBlanks t.SpelledAs text.toList) :
    Document.ofText text = ⟨t, false⟩ := by
  obtain ⟨bs, blank, read⟩ := (isRead t).spaced spelled
  have read := read (2 * text.toList.length + 2) [] endsNumeral_nil (by omega)
  have spent : dropBlanks bs = [] := by
    have := dropBlanks_append blank []
    rwa [List.append_nil] at this
  rw [List.append_nil, List.append_nil] at read
  unfold Document.ofText
  dsimp only
  rw [read]
  show (⟨t, !(dropBlanks bs).isEmpty⟩ : Document) = ⟨t, false⟩
  rw [spent]
  rfl

/-- What a decoder makes of a value, it makes of every text that spells it. -/
theorem decode_spelled {α : Type} (read : Read α) {t : Tree} {text : String}
    (spelled : BetweenBlanks t.SpelledAs text.toList) : decode read text = read .top t := by
  unfold decode
  rw [ofText_spelled spelled]
  dsimp only
  cases read .top t <;> rfl

/-- What is decoded from a text was read from its value. -/
theorem read_of_decode {α : Type} {read : Read α} {text : String} {a : α} (answer : decode read text = .ok a) :
    read .top (Document.ofText text).root = .ok a := by
  unfold decode at answer
  dsimp only at answer
  cases found : read .top (Document.ofText text).root with
  | error e =>
    rw [found] at answer
    cases answer
  | ok b =>
    rw [found] at answer
    dsimp only at answer
    by_cases trailing : (Document.ofText text).trailing = true
    · rw [if_pos trailing] at answer
      cases answer
    · rw [if_neg trailing] at answer
      exact answer

end Panadapter.Json
