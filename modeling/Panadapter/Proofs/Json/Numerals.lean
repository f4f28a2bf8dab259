import Mathlib.Algebra.Ring.Nat
import Mathlib.Data.List.Basic
import Mathlib.Data.List.TakeDrop
import Panadapter.Decimal.Layout
import Panadapter.Json.Encode
import Panadapter.Json.Number
import Panadapter.Json.Reader

/-!
# Numerals, written and scanned

A numeral of the grammar (`Numeral.Grammatical`) is scanned from any of its spellings, part by part, in front of
anything that could not go on the numeral (`scanNumeral_append`).

* A numeral is worth a natural number exactly if it is a whole number that fits a word (`number?_eq_natural_iff`).
* A number in decimal digits has the value of its digits, and no leading zero (`valueOfDigits_digits`,
  `head?_digits`).
* Whatever is laid out as a numeral, with the point in place or with a power of ten, is of the grammar
  (`Layout.grammatical_numeral?`). The one thing to see is that the shortest digits never start with a zero, because
  zero does not round to any other number (`Interval.digits_shortest`).
-/

namespace Panadapter

namespace Decimal

/-! ## Digits -/

theorem isDigit_of_mem_digits {n : Nat} {c : Char} (mem : c ∈ digits n) : c.isDigit = true :=
  Nat.isDigit_of_mem_toDigits (by decide) (by decide) mem

theorem digits_ne_nil (n : Nat) : digits n ≠ [] := Nat.toDigits_ne_nil

theorem valueOfDigits_digits (n : Nat) : valueOfDigits (digits n) = n := by
  have shifted : valueOfDigits (digits n) = Nat.ofDigitChars 10 (Nat.toDigits 10 n) 0 := by
    rw [Nat.ofDigitChars_eq_foldl, valueOfDigits, digits]
    simp only [Nat.mul_comm]
  rw [shifted, Nat.ofDigitChars_toDigits (by decide) (by decide)]

/-- Only zero starts with the digit zero. -/
theorem head?_digits {n : Nat} (pos : 0 < n) : (digits n).head? ≠ some '0' := by
  induction n using Nat.strongRecOn with
  | ind n ih =>
    unfold digits at ih ⊢
    by_cases small : n < 10
    · have each : ∀ k < 10, 0 < k → [Nat.digitChar k].head? ≠ some '0' := by decide
      rw [Nat.toDigits_of_lt_base small]
      exact each n small pos
    · have tens : 0 < n / 10 := by omega
      rw [Nat.toDigits_of_base_le (by decide) (by omega), List.head?_append_of_ne_nil _ Nat.toDigits_ne_nil]
      exact ih (n / 10) (by omega) tens

theorem spanDigits_append {ds rest : List Char} (all : ∀ c ∈ ds, c.isDigit = true)
    (stop : ∀ c ∈ rest.head?, c.isDigit = false) : spanDigits (ds ++ rest) = (ds, rest) := by
  rw [spanDigits, List.span_eq_takeWhile_dropWhile, List.takeWhile_append_of_pos all,
    List.dropWhile_append_of_pos all]
  cases rest with
  | nil => rw [List.takeWhile_nil, List.dropWhile_nil, List.append_nil]
  | cons c rest =>
    have no : ¬ c.isDigit = true := by rw [stop c rfl]; decide
    rw [List.takeWhile_cons_of_neg no, List.dropWhile_cons_of_neg no, List.append_nil]

/-! ## The grammar -/

/-- What the grammar of documents asks of a numeral: digits before the point, where a leading zero stands alone, and
nothing but digits behind it. Any power of ten will do. -/
structure Numeral.Grammatical (n : Numeral) : Prop where
  whole : ∀ c ∈ n.whole, c.isDigit = true
  whole_ne_nil : n.whole ≠ []
  zero_alone : n.whole.head? = some '0' → n.whole = ['0']
  fraction : ∀ c ∈ n.fraction, c.isDigit = true

theorem Numeral.grammatical_ofNat (n : Nat) : (Numeral.ofNat n).Grammatical where
  whole _ mem := isDigit_of_mem_digits mem
  whole_ne_nil := digits_ne_nil n
  zero_alone zero := by
    rcases Nat.eq_zero_or_pos n with rfl | pos
    · rfl
    · exact absurd zero (head?_digits pos)
  fraction _ mem := absurd mem List.not_mem_nil

namespace Interval

/-- A grid point is only hit if it lies in the interval. -/
theorem contains_hit? {i : Interval} {tie : Tie} {d : Nat} (hit : i.hit? tie = some d) :
    i.contains (d * i.den) = true := by
  unfold hit? at hit
  grind

theorem pos_of_contains {i : Interval} {num : Nat} (low : 0 < i.low) (inside : i.contains num = true) : 0 < num := by
  unfold contains at inside
  split at inside
  all_goals
    rw [Bool.and_eq_true, decide_eq_true_eq] at inside
    omega

/-- Above zero the shortest decimal has digits other than zero; only where nothing is found is it a plain zero. -/
theorem digits_shortest {i : Interval} (tie : Tie) (low : 0 < i.low) :
    0 < (i.shortest tie).digits ∨ i.shortest tie = ⟨0, 0⟩ := by
  have search : i.shortest tie = ((List.range 24).findSome? fun (k : Nat) =>
      ((i.onGrid (i.coarsest - k)).hit? tie).map fun digits => Scaled.mk digits (i.coarsest - k)).getD ⟨0, 0⟩ := rfl
  rw [search]
  cases found : (List.range 24).findSome? fun (k : Nat) =>
      ((i.onGrid (i.coarsest - k)).hit? tie).map fun digits => Scaled.mk digits (i.coarsest - k) with
  | none => exact .inr rfl
  | some s =>
    obtain ⟨k, _, hit_k⟩ := List.exists_of_findSome?_eq_some found
    obtain ⟨d, hit, rfl⟩ := Option.map_eq_some_iff.1 hit_k
    have low_grid : 0 < (i.onGrid (i.coarsest - k)).low := Nat.mul_pos low (Nat.pow_pos (by decide))
    have reached : 0 < d * (i.onGrid (i.coarsest - k)).den := pos_of_contains low_grid (contains_hit? hit)
    exact .inl (Nat.pos_of_mul_pos_right reached)

theorem low_around {significand : Nat} (exponent : Int) (narrowBelow : Bool) (pos : 0 < significand) :
    0 < (around significand exponent narrowBelow).low := by
  have scale : 0 < 1 <<< (exponent - 2).toNat := by
    rw [Nat.one_shiftLeft]
    exact Nat.two_pow_pos _
  refine Nat.mul_pos ?_ scale
  split <;> omega

end Interval

namespace Layout

variable {l : Layout}

/-- With the point in place, a decimal is a numeral of the grammar. -/
theorem grammatical_pointed (negative : Bool) {ds : List Char} {point : Int}
    (fraction : ∀ c ∈ l.wholeFraction, c.isDigit = true) (all : ∀ c ∈ ds, c.isDigit = true) (some_digit : ds ≠ [])
    (proper : ds.head? ≠ some '0' ∨ ds = ['0'] ∧ point = 1) : (l.pointed negative ds point).Grammatical := by
  have zeros : ∀ k, ∀ c ∈ List.replicate k '0', c.isDigit = true := by
    intro k c mem
    rw [List.eq_of_mem_replicate mem]
    decide
  unfold pointed
  split
  · -- behind the point, after as many zeros as it takes
    exact {
      whole := by rintro _ (_ | ⟨_, ⟨⟩⟩); decide
      whole_ne_nil := List.cons_ne_nil _ _
      zero_alone := fun _ => rfl
      fraction := fun c mem => (List.mem_append.1 mem).elim (zeros _ c) (all c) }
  · split
    · -- in front of the point, padded with zeros
      next above short =>
      exact {
        whole := fun c mem => (List.mem_append.1 mem).elim (all c) (zeros _ c)
        whole_ne_nil := by simp [some_digit]
        zero_alone := by
          rcases proper with lead | ⟨rfl, rfl⟩
          · intro zero
            rw [List.head?_append_of_ne_nil _ some_digit] at zero
            exact absurd zero lead
          · exact fun _ => rfl
        fraction := fraction }
    · -- on both sides
      next above long =>
      exact {
        whole := fun c mem => all c (List.mem_of_mem_take mem)
        whole_ne_nil := by
          rw [Ne, List.take_eq_nil_iff]
          rintro (none_before | rfl)
          · omega
          · exact some_digit rfl
        zero_alone := by
          rcases proper with lead | ⟨rfl, rfl⟩
          · intro zero
            rw [List.head?_take, if_neg (by omega)] at zero
            exact absurd zero lead
          · exact absurd (Nat.le_refl 1) long
        fraction := fun c mem => all c (List.mem_of_mem_drop mem) }

/-- With a power of ten, digits are a numeral of the grammar. -/
theorem grammatical_powered (negative : Bool) {ds : List Char} (point : Int) (all : ∀ c ∈ ds, c.isDigit = true)
    (some_digit : ds ≠ []) : (powered negative ds point).Grammatical := by
  cases ds with
  | nil => exact absurd rfl some_digit
  | cons d rest =>
    exact {
      whole := fun c mem => all c (List.mem_of_mem_take mem)
      whole_ne_nil := List.cons_ne_nil d []
      zero_alone := fun zero => by cases zero; rfl
      fraction := fun c mem => all c (List.mem_cons_of_mem d mem) }

theorem grammatical_arrange (negative : Bool) {s : Scaled} (fraction : ∀ c ∈ l.wholeFraction, c.isDigit = true)
    (proper : 0 < s.digits ∨ s = ⟨0, 0⟩) : (l.arrange negative s).Grammatical := by
  have all : ∀ c ∈ digits s.digits, c.isDigit = true := fun c mem => isDigit_of_mem_digits mem
  have lead : (digits s.digits).head? ≠ some '0'
      ∨ digits s.digits = ['0'] ∧ ((digits s.digits).length : Int) + s.exponent = 1 := by
    rcases proper with pos | rfl
    · exact .inl (head?_digits pos)
    · exact .inr ⟨rfl, rfl⟩
  unfold arrange
  dsimp only
  split
  · exact grammatical_pointed negative fraction all (digits_ne_nil _) lead
  · split
    · exact grammatical_pointed negative fraction all (digits_ne_nil _) lead
    · exact grammatical_powered negative _ all (digits_ne_nil _)

/-- Every finite number is laid out as a numeral of the grammar. -/
theorem grammatical_numeral? {r : Reading} {n : Numeral} (fraction : ∀ c ∈ l.wholeFraction, c.isDigit = true)
    (laid : l.numeral? r = some n) : n.Grammatical := by
  cases r with
  | nan => cases laid
  | infinite negative => cases laid
  | finite negative m e narrow =>
    cases laid
    unfold numeral
    split
    · exact {
        whole := by rintro _ (_ | ⟨_, ⟨⟩⟩); decide
        whole_ne_nil := List.cons_ne_nil _ _
        zero_alone := fun _ => rfl
        fraction := fraction }
    · next nonzero =>
      exact grammatical_arrange negative fraction
        (Interval.digits_shortest l.tie (Interval.low_around e narrow (Nat.pos_of_ne_zero nonzero)))

end Layout

end Decimal

namespace Json

open Decimal

/-! ## Scanning -/

/-- Whether a character in front of which a numeral ends could still belong to it. -/
def goesOn (c : Char) : Bool := c.isDigit || c == '.' || c == 'e' || c == 'E'

/-- A text that leaves a numeral in front of it alone. -/
def EndsNumeral (cs : List Char) : Prop := ∀ c ∈ cs.head?, goesOn c = false

theorem endsNumeral_nil : EndsNumeral [] := by
  intro c mem
  cases mem

theorem endsNumeral_cons {c : Char} (cs : List Char) (stop : goesOn c = false) : EndsNumeral (c :: cs) := by
  rintro _ ⟨⟩
  exact stop

namespace EndsNumeral

variable {cs : List Char}

theorem not_digit (ends : EndsNumeral cs) : ∀ c ∈ cs.head?, c.isDigit = false := by
  intro c mem
  have := ends c mem
  grind [goesOn]

theorem ne_cons (ends : EndsNumeral cs) {c : Char} (on : goesOn c = true) (rest : List Char) : cs ≠ c :: rest := by
  rintro rfl
  rw [ends c rfl] at on
  cases on

end EndsNumeral

/-- The spellings of a power of ten: with either letter, with or without a plus sign, and with any zeros in front. -/
inductive SpellsPower : Option Int → List Char → Prop where
  | none : SpellsPower none []
  | plain {mark : Char} {ds : List Char} (letter : mark = 'e' ∨ mark = 'E') (some_digit : ds ≠ [])
    (all : ∀ c ∈ ds, c.isDigit = true) : SpellsPower (some (valueOfDigits ds)) (mark :: ds)
  | plus {mark : Char} {ds : List Char} (letter : mark = 'e' ∨ mark = 'E') (some_digit : ds ≠ [])
    (all : ∀ c ∈ ds, c.isDigit = true) : SpellsPower (some (valueOfDigits ds)) (mark :: '+' :: ds)
  | minus {mark : Char} {ds : List Char} (letter : mark = 'e' ∨ mark = 'E') (some_digit : ds ≠ [])
    (all : ∀ c ∈ ds, c.isDigit = true) : SpellsPower (some (-(valueOfDigits ds))) (mark :: '-' :: ds)

/-- The spellings of a numeral of the grammar. -/
def SpellsNumeral (n : Numeral) (cs : List Char) : Prop :=
  n.Grammatical ∧ ∃ power, SpellsPower n.power power
    ∧ cs = (if n.negative then ['-'] else []) ++ (n.whole ++ (Numeral.fractionText n.fraction ++ power))

theorem spellsPower_powerText (power : Option Int) : SpellsPower power (Numeral.powerText power) := by
  cases power with
  | none => exact .none
  | some p =>
    have all : ∀ c ∈ digits p.natAbs, c.isDigit = true := fun c mem => isDigit_of_mem_digits mem
    rcases Int.lt_or_le p 0 with below | above
    · have spelled := SpellsPower.minus (.inl rfl) (digits_ne_nil p.natAbs) all
      rw [valueOfDigits_digits, Int.ofNat_natAbs_of_nonpos (Int.le_of_lt below), Int.neg_neg] at spelled
      rw [Numeral.powerText, if_pos below]
      exact spelled
    · have spelled := SpellsPower.plus (.inl rfl) (digits_ne_nil p.natAbs) all
      rw [valueOfDigits_digits, Int.natAbs_of_nonneg above] at spelled
      rw [Numeral.powerText, if_neg (by omega)]
      exact spelled

theorem spellsNumeral_text {n : Numeral} (grammatical : n.Grammatical) : SpellsNumeral n n.text := by
  refine ⟨grammatical, _, spellsPower_powerText n.power, ?_⟩
  rw [Numeral.text, List.append_assoc, List.append_assoc]

theorem SpellsPower.stops {power : Option Int} {cs rest : List Char} (spelled : SpellsPower power cs)
    (ends : EndsNumeral rest) : ∀ c ∈ (cs ++ rest).head?, c.isDigit = false ∧ c ≠ '.' := by
  have letters {mark : Char} (letter : mark = 'e' ∨ mark = 'E') : mark.isDigit = false ∧ mark ≠ '.' := by
    rcases letter with rfl | rfl <;> decide
  cases spelled with
  | none =>
    intro c mem
    refine ⟨ends.not_digit c mem, ?_⟩
    rintro rfl
    have := ends _ mem
    cases this
  | plain letter | plus letter | minus letter =>
    rintro _ ⟨⟩
    exact letters letter

theorem scanPowerDigits_append (negative : Bool) {ds rest : List Char} (some_digit : ds ≠ [])
    (all : ∀ c ∈ ds, c.isDigit = true) (ends : EndsNumeral rest) : scanPowerDigits negative (ds ++ rest)
      = some (some (if negative then -(valueOfDigits ds : Int) else valueOfDigits ds), rest) := by
  unfold scanPowerDigits
  rw [spanDigits_append all ends.not_digit]
  split
  · next empty => exact absurd (Prod.mk.inj empty).1 some_digit
  · next parts =>
    obtain ⟨rfl, rfl⟩ := Prod.mk.inj parts
    rfl

/-- A power of ten is scanned from any of its spellings. -/
theorem scanPower_append {power : Option Int} {cs rest : List Char} (spelled : SpellsPower power cs)
    (ends : EndsNumeral rest) : scanPower (cs ++ rest) = some (power, rest) := by
  have signed {mark : Char} (letter : mark = 'e' ∨ mark = 'E') (cs : List Char) :
      scanPower (mark :: cs) = scanPower.scanSigned cs := by
    rcases letter with rfl | rfl <;> rfl
  cases spelled with
  | none =>
    show scanPower rest = some (none, rest)
    unfold scanPower
    split
    · exact absurd rfl (ends.ne_cons (by decide) _)
    · exact absurd rfl (ends.ne_cons (by decide) _)
    · rfl
  | @plain mark ds letter some_digit all =>
    rw [List.cons_append, signed letter]
    have scan := scanPowerDigits_append false some_digit all ends
    unfold scanPower.scanSigned
    split
    · next same =>
      obtain ⟨d, more, rfl⟩ := List.exists_cons_of_ne_nil some_digit
      have digit := all d List.mem_cons_self
      rw [(List.cons.inj same).1] at digit
      cases digit
    · next same =>
      obtain ⟨d, more, rfl⟩ := List.exists_cons_of_ne_nil some_digit
      have digit := all d List.mem_cons_self
      rw [(List.cons.inj same).1] at digit
      cases digit
    · exact scan
  | plus letter some_digit all =>
    rw [List.cons_append, signed letter]
    exact scanPowerDigits_append false some_digit all ends
  | minus letter some_digit all =>
    rw [List.cons_append, signed letter]
    exact scanPowerDigits_append true some_digit all ends

/-- The digits behind the point are scanned, and no point is scanned as no digits. -/
theorem scanFraction_append {ds tail : List Char} (all : ∀ c ∈ ds, c.isDigit = true)
    (stop : ∀ c ∈ tail.head?, c.isDigit = false ∧ c ≠ '.') :
    scanFraction (Numeral.fractionText ds ++ tail) = some (ds, tail) := by
  cases ds with
  | nil =>
    show scanFraction tail = some ([], tail)
    unfold scanFraction
    split
    · exact absurd rfl (stop '.' rfl).2
    · rfl
  | cons d more =>
    show scanFraction ('.' :: (d :: more ++ tail)) = some (d :: more, tail)
    simp only [scanFraction, spanDigits_append all fun c mem => (stop c mem).1]

theorem fractionText_stops {ds tail : List Char} (stop : ∀ c ∈ tail.head?, c.isDigit = false) :
    ∀ c ∈ (Numeral.fractionText ds ++ tail).head?, c.isDigit = false := by
  cases ds with
  | nil => exact stop
  | cons d more =>
    rintro _ ⟨⟩
    decide

theorem scanMagnitude_append {n : Numeral} (grammatical : n.Grammatical) {power rest : List Char}
    (spelled : SpellsPower n.power power) (ends : EndsNumeral rest) :
    scanMagnitude n.negative (n.whole ++ (Numeral.fractionText n.fraction ++ (power ++ rest))) = some (n, rest) := by
  have stops := spelled.stops ends
  unfold scanMagnitude
  rw [spanDigits_append grammatical.whole (fractionText_stops fun c mem => (stops c mem).1)]
  split
  · next none_before => exact absurd (Prod.mk.inj none_before).1 grammatical.whole_ne_nil
  · next zero_leads =>
    obtain ⟨whole, _⟩ := Prod.mk.inj zero_leads
    have alone := grammatical.zero_alone (by rw [whole]; rfl)
    rw [whole] at alone
    cases alone
  · next parts =>
    obtain ⟨rfl, rfl⟩ := Prod.mk.inj parts
    rw [scanFraction_append grammatical.fraction stops, Option.bind_some]
    show (scanPower (power ++ rest)).map _ = some (n, rest)
    rw [scanPower_append spelled ends]
    rfl

/-- **A numeral is scanned from any of its spellings**, in front of anything that cannot go on it. -/
theorem scanNumeral_append {n : Numeral} {cs rest : List Char} (spelled : SpellsNumeral n cs)
    (ends : EndsNumeral rest) : scanNumeral (cs ++ rest) = some (n, rest) := by
  obtain ⟨grammatical, power, power_spelled, rfl⟩ := spelled
  have magnitude := scanMagnitude_append grammatical power_spelled ends
  rw [List.append_assoc, List.append_assoc, List.append_assoc]
  cases sign : n.negative with
  | true =>
    rw [sign] at magnitude
    rw [if_pos rfl]
    exact magnitude
  | false =>
    rw [sign] at magnitude
    rw [if_neg (by decide), List.nil_append]
    unfold scanNumeral
    split
    · next starts =>
      -- a minus is no digit
      obtain ⟨d, more, whole⟩ := List.exists_cons_of_ne_nil grammatical.whole_ne_nil
      have digit := grammatical.whole d (by rw [whole]; exact List.mem_cons_self)
      rw [whole] at starts
      rw [(List.cons.inj starts).1] at digit
      cases digit
    · exact magnitude

/-! ## Whole numbers in documents -/

/-- A value that is a whole number, written in digits alone. -/
def Tree.IsNat (t : Tree) (n : Nat) : Prop := ∃ ds, t = .number ⟨false, ds, [], none⟩ ∧ valueOfDigits ds = n

theorem Tree.IsNat.unique {t : Tree} {m n : Nat} (first : t.IsNat m) (second : t.IsNat n) : m = n := by
  obtain ⟨ds, rfl, rfl⟩ := first
  obtain ⟨es, same, rfl⟩ := second
  simp only [Tree.number.injEq, Decimal.Numeral.mk.injEq, true_and, and_true] at same
  rw [same]

/-- A numeral is worth a natural number exactly if it is a whole number that fits a word. -/
theorem number?_eq_natural_iff {x : Decimal.Numeral} {n : Nat} :
    number? x = some (.natural n) ↔ (Tree.number x).IsNat n ∧ n < 2 ^ 64 := by
  have natural : number? x = some (.natural n)
      ↔ (x.isWhole && !x.negative && valueOfDigits x.whole < wordBound) = true ∧ valueOfDigits x.whole = n := by
    unfold number?
    dsimp only
    split
    · simp [*]
    · split
      · simp [*]
      · cases real? x <;> simp [*]
  rw [natural]
  simp only [Bool.and_eq_true, Decimal.Numeral.isWhole, Bool.not_eq_true', decide_eq_true_eq, List.isEmpty_iff,
    Option.isNone_iff_eq_none]
  constructor
  · rintro ⟨⟨⟨⟨fraction, power⟩, positive⟩, small⟩, rfl⟩
    obtain ⟨negative, whole, _, _⟩ := x
    subst fraction power positive
    exact ⟨⟨whole, rfl, rfl⟩, small⟩
  · rintro ⟨⟨ds, same, rfl⟩, small⟩
    obtain rfl := Tree.number.inj same
    exact ⟨⟨⟨⟨rfl, rfl⟩, rfl⟩, small⟩, rfl⟩

end Json

end Panadapter
