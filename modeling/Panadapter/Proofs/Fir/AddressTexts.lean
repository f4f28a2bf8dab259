import Mathlib.Data.Nat.Digits.Defs
import Panadapter.Proofs.Fir.DryRun
import Panadapter.Proofs.Outcome

/-!
# Texts of addresses

An address is named by hexadecimal digits behind `0x` or by decimal digits. A plus sign may stand in front of the
digits, and so may any number of zeros.

* Which digits are read, and which number they spell, does not depend on how the bound of the range is watched
  (`Decimal.readDigits_eq_ok_iff`): a number that has outgrown it does not come back.
* A text is read as an address exactly if it names one (`parseAddress_eq_ok_iff`).
* Addresses read back from the digits in which they are written (`address_texts`).
-/

namespace Panadapter

namespace Decimal

open Outcome (bind_eq_ok_iff map_eq_ok_iff)

/-! ## Digits -/

/-- A digit of a radix, in either case, and its value. -/
def IsDigit (radix : Nat) (c : Char) (v : Nat) : Prop := v < radix ∧ c.toLower = Nat.digitChar v

/-- Digits of a radix, at least one of them and the first one counting most, and the number that they spell. -/
def Spells (radix : Nat) (cs : List Char) (n : Nat) : Prop :=
  cs ≠ [] ∧ ∃ vs, List.Forall₂ (IsDigit radix) cs vs ∧ n = Nat.ofDigits radix vs.reverse

theorem toNat_toLower (c : Char) :
    c.toLower.toNat = if 65 ≤ c.toNat ∧ c.toNat ≤ 90 then c.toNat + 32 else c.toNat := by
  have upper : (c.val ≥ 'A'.val ∧ c.val ≤ 'Z'.val) ↔ (65 ≤ c.toNat ∧ c.toNat ≤ 90) := by
    rw [ge_iff_le, UInt32.le_iff_toNat_le, UInt32.le_iff_toNat_le]
    rfl
  unfold Char.toLower
  by_cases h : c.val ≥ 'A'.val ∧ c.val ≤ 'Z'.val
  · have small : c.val.toNat ≤ 90 := (upper.1 h).2
    rw [dif_pos h, if_pos (upper.1 h)]
    show (c.val + ('a'.val - 'A'.val)).toNat = c.val.toNat + 32
    rw [UInt32.toNat_add]
    show (c.val.toNat + 32) % 2 ^ 32 = c.val.toNat + 32
    omega
  · rw [dif_neg h, if_neg (mt upper.2 h)]

theorem toNat_digitChar {v : Nat} (lt : v < 16) : (Nat.digitChar v).toNat = if v < 10 then 48 + v else 87 + v := by
  have each : ∀ v < 16, (Nat.digitChar v).toNat = if v < 10 then 48 + v else 87 + v := by decide
  exact each v lt

section

variable {radix limit n v : Nat} {overflow : IntegerFault} {cs : List Char}

theorem digitValue?_eq_some_iff (le : radix ≤ 16) (c : Char) : digitValue? radix c = some v ↔ IsDigit radix c v := by
  have between (a b : Char) : a ≤ c ∧ c ≤ b ↔ a.toNat ≤ c.toNat ∧ c.toNat ≤ b.toNat := Iff.rfl
  unfold digitValue? IsDigit
  rw [Option.filter_eq_some_iff, decide_eq_true_eq, and_comm]
  refine and_congr_right fun lt => ?_
  rw [← Char.toNat_inj, toNat_toLower, toNat_digitChar (by omega)]
  simp only [between]
  grind

theorem not_isDigit_plus (radix v : Nat) (le : radix ≤ 16) : ¬IsDigit radix '+' v := by
  rw [← digitValue?_eq_some_iff le]
  simp [digitValue?]

/-- Digits that follow a number spell the number that they continue. -/
theorem ofDigits_reverse_cons_add (radix start v : Nat) (vs : List Nat) :
    (start * radix + v) * radix ^ vs.length + Nat.ofDigits radix vs.reverse
      = start * radix ^ (v :: vs).length + Nat.ofDigits radix (v :: vs).reverse := by
  rw [Nat.ofDigits_reverse_cons, List.length_cons, Nat.pow_succ]
  ring

/-- What is read behind a number is the number that its digits continue, if that is within the limit. The limit is
watched at every digit, but a number does not get smaller by further digits. -/
theorem readDigits_eq_ok_iff (le : radix ≤ 16) (pos : 0 < radix) {start : Nat} (within : start ≤ limit) :
    readDigits radix limit overflow start cs = .ok n ↔ ∃ vs, List.Forall₂ (IsDigit radix) cs vs
      ∧ n = start * radix ^ vs.length + Nat.ofDigits radix vs.reverse ∧ n ≤ limit := by
  induction cs generalizing start with
  | nil =>
    simp only [readDigits, List.forall₂_nil_left_iff, Except.ok.injEq]
    constructor
    · rintro rfl
      exact ⟨[], rfl, by simp, within⟩
    · rintro ⟨_, rfl, same, -⟩
      simpa using same.symm
  | cons c cs ih =>
    rw [readDigits]
    cases value : digitValue? radix c with
    | none =>
      refine iff_of_false nofun ?_
      rintro ⟨_ | ⟨v, vs⟩, digits, -⟩
      · cases digits
      · obtain ⟨digit, -⟩ := List.forall₂_cons.1 digits
        rw [← digitValue?_eq_some_iff le, value] at digit
        cases digit
    | some v =>
      have digit := (digitValue?_eq_some_iff le c).1 value
      have unique {u : Nat} (other : IsDigit radix c u) : u = v := by
        rw [← digitValue?_eq_some_iff le, value] at other
        exact (Option.some.inj other).symm
      dsimp only
      by_cases room : start * radix + v ≤ limit
      · rw [if_pos room, ih room]
        constructor
        · rintro ⟨vs, digits, same, small⟩
          exact ⟨v :: vs, .cons digit digits, by rw [same, ofDigits_reverse_cons_add], small⟩
        · rintro ⟨_ | ⟨u, vs⟩, digits, same, small⟩
          · cases digits
          · obtain ⟨first, rest⟩ := List.forall₂_cons.1 digits
            obtain rfl := unique first
            exact ⟨vs, rest, by rw [same, ofDigits_reverse_cons_add], small⟩
      · rw [if_neg room]
        refine iff_of_false nofun ?_
        rintro ⟨_ | ⟨u, vs⟩, digits, same, small⟩
        · cases digits
        · obtain rfl := unique (List.forall₂_cons.1 digits).1
          rw [← ofDigits_reverse_cons_add] at same
          have := Nat.le_mul_of_pos_right (start * radix + u) (Nat.pow_pos (n := vs.length) pos)
          omega

theorem readDigits_zero_eq_ok_iff (le : radix ≤ 16) (pos : 0 < radix) (some_digit : cs ≠ []) :
    readDigits radix limit overflow 0 cs = .ok n ↔ Spells radix cs n ∧ n ≤ limit := by
  rw [readDigits_eq_ok_iff le pos (Nat.zero_le limit), Spells]
  simp only [Nat.zero_mul, Nat.zero_add]
  constructor
  · rintro ⟨vs, digits, same, small⟩
    exact ⟨⟨some_digit, vs, digits, same⟩, small⟩
  · rintro ⟨⟨-, vs, digits, same⟩, small⟩
    exact ⟨vs, digits, same, small⟩

/-- A number is read from its digits, behind an optional plus sign, if it is within the limit. -/
theorem readNat_eq_ok_iff (le : radix ≤ 16) (pos : 0 < radix) : readNat radix limit cs = .ok n
    ↔ ∃ ds, (cs = ds ∨ cs = '+' :: ds) ∧ Spells radix ds n ∧ n ≤ limit := by
  have no_sign {ds : List Char} (spelled : Spells radix ('+' :: ds) n) : False := by
    obtain ⟨-, _ | ⟨v, vs⟩, digits, -⟩ := spelled
    · cases digits
    · exact not_isDigit_plus radix v le (List.forall₂_cons.1 digits).1
  unfold readNat
  split
  · refine iff_of_false nofun ?_
    rintro ⟨ds, rfl | same, spelled, -⟩
    · exact spelled.1 rfl
    · cases same
  · refine iff_of_false nofun ?_
    rintro ⟨ds, rfl | same, spelled, -⟩
    · exact no_sign spelled
    · exact spelled.1 (List.cons.inj same).2.symm
  · next rest more =>
    rw [readDigits_zero_eq_ok_iff le pos fun none => more (by rw [none])]
    constructor
    · exact fun spelled => ⟨rest, .inr rfl, spelled⟩
    · rintro ⟨ds, rfl | same, spelled⟩
      · exact (no_sign spelled.1).elim
      · rwa [(List.cons.inj same).2]
  · next some_digit _ unsigned =>
    rw [readDigits_zero_eq_ok_iff le pos some_digit]
    constructor
    · exact fun spelled => ⟨cs, .inl rfl, spelled⟩
    · rintro ⟨ds, rfl | same, spelled⟩
      · exact spelled
      · exact (unsigned ds same).elim

theorem spells_toDigits (two : 1 < radix) (le : radix ≤ 16) (n : Nat) : Spells radix (Nat.toDigits radix n) n := by
  refine ⟨Nat.toDigits_ne_nil, ?_⟩
  have digit {v : Nat} (lt : v < radix) : IsDigit radix (Nat.digitChar v) v := by
    have each : ∀ v < 16, (Nat.digitChar v).toLower = Nat.digitChar v := by decide
    exact ⟨lt, each v (by omega)⟩
  induction n using Nat.strong_induction_on with
  | h n ih =>
    by_cases small : n < radix
    · rw [Nat.toDigits_of_lt_base small]
      exact ⟨[n], .cons (digit small) .nil, by simp⟩
    · have last : n % radix < radix := Nat.mod_lt n (by omega)
      obtain ⟨vs, digits, same⟩ := ih (n / radix) (Nat.div_lt_self (by omega) two)
      rw [Nat.toDigits_of_base_le two (Nat.le_of_not_lt small)]
      refine ⟨vs ++ [n % radix], List.rel_append digits (.cons (digit last) .nil), ?_⟩
      rw [List.reverse_append, List.reverse_singleton, List.singleton_append, Nat.ofDigits_cons, ← same]
      exact (Nat.mod_add_div n radix).symm

/-- Zeros in front of digits do not count. -/
theorem Spells.zeros {radix n : Nat} {cs : List Char} (pos : 0 < radix) (spelled : Spells radix cs n) (k : Nat) :
    Spells radix (List.replicate k '0' ++ cs) n := by
  induction k with
  | zero => exact spelled
  | succ k ih =>
    obtain ⟨-, vs, digits, same⟩ := ih
    refine ⟨List.cons_ne_nil _ _, 0 :: vs, .cons ⟨pos, rfl⟩ digits, ?_⟩
    rw [Nat.ofDigits_reverse_cons, Nat.mul_zero, Nat.add_zero, same]

end

end Decimal

/-! ## Addresses -/

open Decimal (Spells readNat_eq_ok_iff spells_toDigits)

/-- Digits, with or without a plus sign in front of them, and the number that they spell. -/
def SpellsSigned (radix : Nat) (cs : List Char) (n : Nat) : Prop := ∃ ds, (cs = ds ∨ cs = '+' :: ds) ∧ Spells radix ds n

/-- A text that names a number: by hexadecimal digits behind `0x` or `0X`, or by decimal digits. -/
inductive NamesNumber : List Char → Nat → Prop where
  | hexadecimal {x : Char} {cs : List Char} {n : Nat} (mark : x = 'x' ∨ x = 'X') (digits : SpellsSigned 16 cs n) :
    NamesNumber ('0' :: x :: cs) n
  | decimal {cs : List Char} {n : Nat} (digits : SpellsSigned 10 cs n) : NamesNumber cs n

/-- A mark behind a zero is no decimal digit. -/
theorem not_spellsSigned_mark {x : Char} {cs : List Char} {n : Nat} (mark : x = 'x' ∨ x = 'X') :
    ¬SpellsSigned 10 ('0' :: x :: cs) n := by
  rintro ⟨_, rfl | same, -, vs, digits, -⟩
  · obtain ⟨u, us, -, rest, rfl⟩ := List.forall₂_cons_left_iff.1 digits
    obtain ⟨v, vs, ⟨lt, letter⟩, -, rfl⟩ := List.forall₂_cons_left_iff.1 rest
    have lower : x.toLower = 'x' := by rcases mark with rfl | rfl <;> rfl
    have none : ∀ v < 10, Nat.digitChar v ≠ 'x' := by decide
    exact none v lt (letter.symm.trans lower)
  · cases same

/-- The radix is told by what stands in front. -/
theorem namesNumber_iff (cs : List Char) (n : Nat) :
    NamesNumber cs n ↔ SpellsSigned (addressDigits cs).1 (addressDigits cs).2 n := by
  constructor
  · rintro (⟨mark, digits⟩ | digits)
    · rcases mark with rfl | rfl <;> exact digits
    · fun_cases addressDigits cs
      · exact absurd digits (not_spellsSigned_mark (.inl rfl))
      · exact absurd digits (not_spellsSigned_mark (.inr rfl))
      · exact digits
  · fun_cases addressDigits cs
    · exact .hexadecimal (.inl rfl)
    · exact .hexadecimal (.inr rfl)
    · exact .decimal

theorem radix_addressDigits (cs : List Char) : (addressDigits cs).1 = 16 ∨ (addressDigits cs).1 = 10 := by
  fun_cases addressDigits cs
  · exact .inl rfl
  · exact .inl rfl
  · exact .inr rfl

/-- A text is read as an address exactly if it names it. -/
theorem parseAddress_eq_ok_iff (text : String) (a : Address) :
    parseAddress text = .ok a ↔ NamesNumber text.toList a.toNat := by
  obtain ⟨le, pos⟩ : (addressDigits text.toList).1 ≤ 16 ∧ 0 < (addressDigits text.toList).1 := by
    rcases radix_addressDigits text.toList with radix | radix <;> rw [radix] <;> decide
  have read (n : Nat) : Decimal.readNat (addressDigits text.toList).1 0xffffffff (addressDigits text.toList).2 = .ok n
      ↔ ∃ ds, ((addressDigits text.toList).2 = ds ∨ (addressDigits text.toList).2 = '+' :: ds)
        ∧ Spells (addressDigits text.toList).1 ds n ∧ n ≤ 0xffffffff := readNat_eq_ok_iff le pos
  have small := a.toNat_lt
  rw [namesNumber_iff]
  unfold parseAddress
  dsimp only
  cases outcome : Decimal.readNat (addressDigits text.toList).1 0xffffffff (addressDigits text.toList).2 with
  | error e =>
    refine iff_of_false nofun ?_
    rintro ⟨ds, signed, spelled⟩
    rw [(read a.toNat).2 ⟨ds, signed, spelled, by omega⟩] at outcome
    cases outcome
  | ok n =>
    obtain ⟨ds, signed, spelled, le⟩ := (read n).1 outcome
    dsimp only
    rw [Except.ok.injEq]
    constructor
    · rintro rfl
      rw [UInt32.toNat_ofNat_of_lt' (by rw [UInt32.size]; omega)]
      exact ⟨ds, signed, spelled⟩
    · rintro ⟨es, signed, spelled⟩
      have same := (read a.toNat).2 ⟨es, signed, spelled, by omega⟩
      rw [outcome] at same
      rw [Except.ok.inj same, UInt32.ofNat_toNat]

/-- A text is refused exactly if it names no number of 32 bits. -/
theorem parseAddress_refused_iff (text : String) :
    (∃ e, parseAddress text = .error e) ↔ ¬∃ n < 2 ^ 32, NamesNumber text.toList n := by
  rw [Outcome.exists_error_iff, not_iff_not]
  simp only [parseAddress_eq_ok_iff]
  constructor
  · rintro ⟨a, named⟩
    exact ⟨a.toNat, a.toNat_lt, named⟩
  · rintro ⟨n, lt, named⟩
    refine ⟨UInt32.ofNat n, ?_⟩
    rwa [UInt32.toNat_ofNat_of_lt' lt]

/-- An address reads back from its hexadecimal digits. -/
theorem parseAddress_hexWord (a : Address) : parseAddress (String.ofList (hexWord a)) = .ok a := by
  rw [parseAddress_eq_ok_iff, String.toList_ofList]
  exact .hexadecimal (.inl rfl) ⟨_, .inl rfl, (spells_toDigits (by decide) (by decide) a.toNat).zeros (by decide) _⟩

/-- An address reads back from its decimal digits. -/
theorem parseAddress_toString (a : Address) : parseAddress (toString a.toNat) = .ok a := by
  rw [parseAddress_eq_ok_iff, Nat.toString_eq_ofList_toDigits, String.toList_ofList]
  exact .decimal ⟨_, .inl rfl, spells_toDigits (by decide) (by decide) a.toNat⟩

/-- A write is shown with its address in front. -/
theorem RegisterWrite.take_shown (w : RegisterWrite) : w.shown.toList.take 10 = hexWord w.address := by
  rw [shown, String.toList_ofList, List.append_assoc, List.take_left' (length_hexWord w.address)]

/-- A dry run shows the writes that it records, behind its report. -/
theorem FirTool.lines_of_run {t : FirTool} {s : Storage} {lines : List String} (done : t.run s = .ok lines) :
    ∃ report m words, t.registerMap s = .ok m ∧ t.coefficients s = .ok words
      ∧ lines = report :: (t.perform words m Recording.device .empty).2.writes.map RegisterWrite.shown := by
  obtain ⟨m, known, rest⟩ := Outcome.bind_eq_ok_iff.1 done
  obtain ⟨words, loaded, rest⟩ := Outcome.bind_eq_ok_iff.1 rest
  by_cases dry : t.dryRun = true
  · rw [if_pos dry] at rest
    obtain ⟨report, -, same⟩ := Outcome.bind_eq_ok_iff.1 rest
    exact ⟨report, m, words, known, loaded, (Except.ok.inj same).symm⟩
  · rw [if_neg dry] at rest
    cases rest

/-- **Texts of addresses.** A text is read as an address exactly if it names it, by hexadecimal digits behind `0x` or by
decimal digits, and every other text is refused. So an address reads back from its digits, and from every line in which
a dry run shows a write to it. -/
theorem address_texts :
    (∀ (text : String) (a : Address), parseAddress text = .ok a ↔ NamesNumber text.toList a.toNat)
      ∧ (∀ text : String, (∃ e, parseAddress text = .error e) ↔ ¬∃ n < 2 ^ 32, NamesNumber text.toList n)
      ∧ (∀ a : Address, parseAddress (String.ofList (hexWord a)) = .ok a ∧ parseAddress (toString a.toNat) = .ok a)
      ∧ ∀ (t : FirTool) (s : Storage) (lines : List String), t.run s = .ok lines →
        ∃ report m words, t.registerMap s = .ok m ∧ t.coefficients s = .ok words
          ∧ lines = report :: (t.perform words m Recording.device .empty).2.writes.map RegisterWrite.shown
          ∧ ∀ w ∈ (t.perform words m Recording.device .empty).2.writes,
            parseAddress (String.ofList (w.shown.toList.take 10)) = .ok w.address := by
  refine ⟨parseAddress_eq_ok_iff, parseAddress_refused_iff,
    fun a => ⟨parseAddress_hexWord a, parseAddress_toString a⟩, ?_⟩
  intro t s lines done
  obtain ⟨report, m, words, known, loaded, shown⟩ := FirTool.lines_of_run done
  refine ⟨report, m, words, known, loaded, shown, fun w _ => ?_⟩
  rw [w.take_shown, parseAddress_hexWord]

/-- What is shown of a configuration, with registers from 4096 on. -/
theorem address_texts_configuration :
    let t : FirTool := { firstRegister := some 4096, dryRun := true, command := .configuration ⟨4, 32, false⟩ }
    ∃ lines, t.run .empty = .ok lines ∧ ∃ report m words, t.registerMap .empty = .ok m
      ∧ t.coefficients .empty = .ok words
      ∧ lines = report :: (t.perform words m Recording.device .empty).2.writes.map RegisterWrite.shown
      ∧ ∀ w ∈ (t.perform words m Recording.device .empty).2.writes,
        parseAddress (String.ofList (w.shown.toList.take 10)) = .ok w.address := by
  intro t
  obtain ⟨-, -, -, tells⟩ := address_texts
  have done : t.run .empty = .ok (_ :: _) := rfl
  exact ⟨_, done, tells t .empty _ done⟩

example : parseAddress "0X+000000000fF" = .ok 255 := by decide +kernel
example : (parseAddress "0x0x10").toOption = none := by decide +kernel
example : (parseAddress "4294967296").toOption = none := by decide +kernel

end Panadapter
