import Mathlib
import Panadapter.Proofs.Decimal.Places
import Panadapter.Proofs.Decimal.Values
import Panadapter.ToneProgram

/-!
# Arguments of the tone program

The amplitude is cut to the unit interval and written with six places. The comparisons that cut it let through two
numbers that have no plain numeral: what is no number, and zero with a minus sign.

* Every other amplitude is a plain numeral, within half a unit of the last place (`ToneSettings.amplitudeText_cases`).
* The other settings are told by the arguments (`ToneSettings.argumentsTell`).
-/

namespace Panadapter

open Decimal
open Float.Model (UnpackedFloat)
open Float.Model.UnpackedFloat (Sign)

/-! ## Plain numerals -/

/-- A digit, a point and six digits, which are a number of the unit interval, within half a unit of the last place of a
number. -/
def IsPlainUnit (text : String) (x : ℚ) : Prop :=
  ∃ whole places, text.toList = whole :: '.' :: places ∧ places.length = 6
    ∧ (∀ c ∈ whole :: places, c.isDigit = true)
    ∧ (valueOfDigits (whole :: places) : ℚ) / 10 ^ 6 ≤ 1
    ∧ |(valueOfDigits (whole :: places) : ℚ) / 10 ^ 6 - x| ≤ 1 / (2 * 10 ^ 6)

theorem IsPlainUnit.point {text : String} {x : ℚ} (plain : IsPlainUnit text x) : text.toList[1]? = some '.' := by
  obtain ⟨whole, places, characters, -⟩ := plain
  rw [characters]
  rfl

variable {m : ℕ} {e : ℤ} {x : Float}

/-- A number of the unit interval without a minus sign is written as a plain numeral. -/
theorem isPlainUnit_fixed (le : (m : ℚ) * 2 ^ e ≤ 1) (narrow : Bool) :
    IsPlainUnit (fixed 6 (.finite false m e narrow)) (m * 2 ^ e) := by
  have near := unitsAt_near 6 m e
  obtain ⟨places, text, length, digit, value⟩ := placed_eq (show 0 < 6 by decide) (unitsAt 6 m e)
  have upto : unitsAt 6 m e ≤ 10 ^ 6 := by
    have := (abs_le.1 near).2
    have : (unitsAt 6 m e : ℚ) < (10 ^ 6 + 1 : ℕ) := by
      push_cast
      linarith
    exact Nat.lt_succ_iff.1 (Nat.cast_lt.1 this)
  obtain ⟨whole, one⟩ : ∃ whole, digits (unitsAt 6 m e / 10 ^ 6) = [whole] := by
    have small : unitsAt 6 m e / 10 ^ 6 < 10 := by omega
    exact ⟨_, Nat.toDigits_of_lt_base small⟩
  have first : whole.isDigit = true := isDigit_of_mem_digits (one ▸ List.mem_singleton_self whole)
  rw [one] at text value
  have written : (fixed 6 (.finite false m e narrow)).toList = placed 6 (unitsAt 6 m e) := by
    rw [fixed]
    exact String.toList_ofList
  refine ⟨whole, places, written.trans text, length, List.forall_mem_cons.2 ⟨first, digit⟩, ?_, ?_⟩
  · show ((valueOfDigits ([whole] ++ places) : ℕ) : ℚ) / 10 ^ 6 ≤ 1
    rw [value, div_le_one (by norm_num)]
    exact_mod_cast upto
  · show |((valueOfDigits ([whole] ++ places) : ℕ) : ℚ) / 10 ^ 6 - m * 2 ^ e| ≤ _
    rw [value]
    exact near

/-! ## The amplitude -/

/-- Only one number is zero with a minus sign. -/
theorem unpack_eq_minus_zero_iff : x.toModel.unpack = .zero .negative ↔ x = -0.0 :=
  ⟨fun zero => double_ext zero, fun same => same ▸ rfl⟩

theorem isNaN_iff_unpack : x.isNaN = true ↔ x.toModel.unpack = .notANumber := by
  show x.toModel.unpack.isNaN = true ↔ _
  cases x.toModel.unpack with
  | notANumber => exact iff_of_true rfl rfl
  | _ => exact iff_of_false nofun nofun

theorem Tone.clampUnit_of_isNaN (nan : x.isNaN = true) : Tone.clampUnit x = x := by
  have apart (y : Float) : ¬x < y ∧ ¬y < x := by
    rw [lt_iff_rank, lt_iff_rank, nan]
    exact ⟨nofun, nofun⟩
  rw [Tone.clampUnit, if_neg (apart 0).1, if_neg (apart 1).2]

theorem Tone.unpack_clampUnit (number : x.isNaN = false) :
    (Tone.clampUnit x).toModel.unpack = cut (1 : Float).toModel.unpack x.toModel.unpack := by
  have zero : x < 0 ↔ x.isNaN = false ∧ _ ∧ rank x.toModel.unpack < rank (.zero .positive) := lt_iff_rank
  unfold Tone.clampUnit cut
  by_cases below : x < 0
  · rw [if_pos below, if_pos (zero.1 below).2.2]
    rfl
  · rw [if_neg below, if_neg fun lt => below (zero.2 ⟨number, rfl, lt⟩)]
    by_cases above : 1 < x
    · rw [if_pos above, if_pos (lt_iff_rank.1 above).2.2]
    · rw [if_neg above, if_neg fun lt => above (lt_iff_rank.2 ⟨rfl, number, lt⟩)]

/-- The amplitude is a plain numeral, but for the two numbers that have none. -/
theorem ToneSettings.amplitudeText_cases (s : ToneSettings) :
    s.amplitude.isNaN = true ∧ s.amplitudeText = "NaN"
      ∨ s.amplitude = -0.0 ∧ s.amplitudeText = "-0.000000"
      ∨ s.amplitude.isNaN = false ∧ s.amplitude ≠ -0.0
        ∧ IsPlainUnit s.amplitudeText (unitPart s.amplitude.toModel.unpack) := by
  obtain ⟨narrow, read⟩ := exists_read_eq .binary64 (Tone.clampUnit s.amplitude).toBits.toBitVec
  have text : s.amplitudeText = fixed 6 (readingOf narrow Float.Model.Format.binary64.minExponent
      (Tone.clampUnit s.amplitude).toModel.unpack) := congrArg (fixed 6) read
  cases number : s.amplitude.isNaN with
  | true =>
    rw [Tone.clampUnit_of_isNaN number, isNaN_iff_unpack.1 number] at text
    exact .inl ⟨rfl, text⟩
  | false =>
    refine .inr ?_
    have canonical : CanonicalIn .binary64 (1 : Float).toModel.unpack := canonicalIn_unpack _ _
    have value_one : value (1 : Float).toModel.unpack = 1 := by
      show ((2 ^ 52 : ℕ) : ℚ) * 2 ^ (-52 : ℤ) = 1
      norm_num
    have parts : CanonicalIn .binary64 s.amplitude.toModel.unpack := canonicalIn_unpack _ _
    obtain ⟨finite, same⟩ := value_cut canonical rfl value_one parts number
    have zero := cut_eq_minus_zero_iff canonical rfl value_one (a := s.amplitude.toModel.unpack)
    rw [← Tone.unpack_clampUnit number] at finite same zero
    by_cases minus : s.amplitude = -0.0
    · rw [zero.2 (unpack_eq_minus_zero_iff.2 minus)] at text
      exact .inl ⟨minus, text⟩
    · refine .inr ⟨rfl, minus, ?_⟩
      have within := unitPart_mem s.amplitude.toModel.unpack
      rw [← same] at within
      rw [text, ← same]
      cases parts : (Tone.clampUnit s.amplitude).toModel.unpack with
      | notANumber => exact absurd (parts ▸ finite) nofun
      | infinity t => exact absurd (parts ▸ finite) nofun
      | zero t =>
        cases t with
        | negative => exact absurd (unpack_eq_minus_zero_iff.1 (zero.1 parts)) minus
        | positive =>
          have nothing : ((0 : ℕ) : ℚ) * 2 ^ Float.Model.Format.binary64.minExponent = 0 := by simp
          have plain := isPlainUnit_fixed (nothing.trans_le zero_le_one) false
          rw [nothing] at plain
          exact plain
      | finite t m e pos =>
        rw [parts] at within
        cases t with
        | negative => exact absurd (neg_neg_of_pos (scale_pos pos e)) within.1.not_gt
        | positive => exact isPlainUnit_fixed within.2 narrow

/-! ## The list -/

/-- What stands behind the first argument of a name. -/
def argumentBehind (name : String) : List String → Option String
  | flag :: text :: rest => if flag = name then some text else argumentBehind name (text :: rest)
  | _ => none

theorem argumentBehind_self (name text : String) (rest : List String) :
    argumentBehind name (name :: text :: rest) = some text := if_pos rfl

theorem argumentBehind_of_ne {name flag : String} (other : flag ≠ name) (text : String) (rest : List String) :
    argumentBehind name (flag :: text :: rest) = argumentBehind name (text :: rest) := if_neg other

theorem toString_ne_of_letter {text : String} {c : Char} (mem : c ∈ text.toList) (letter : c.isDigit = false)
    (sign : c ≠ '-') (z : ℤ) : toString z ≠ text := by
  rintro rfl
  have digit (n : ℕ) (mem : c ∈ (Nat.repr n).toList) : False := by
    rw [Nat.repr, String.toList_ofList] at mem
    rw [isDigit_of_mem_digits mem] at letter
    cases letter
  cases z with
  | ofNat n => exact digit n mem
  | negSucc n =>
    rw [show toString (Int.negSucc n) = "-" ++ Nat.repr (n + 1) from rfl, String.toList_append] at mem
    rcases List.mem_append.1 mem with minus | mem
    · exact sign (List.mem_singleton.1 minus)
    · exact digit _ mem

theorem toString_ne_flag (z : ℤ) : toString z ≠ "-a" :=
  toString_ne_of_letter (c := 'a') (by decide) rfl (by decide) z

namespace ToneSettings

theorem argumentBehind_args (s : ToneSettings) : argumentBehind "-a" s.args = some s.amplitudeText := by
  have behind (rest : List String) : argumentBehind "-a" ("-f" :: toString s.frequency :: "-s"
      :: toString s.sampleRate :: "-a" :: s.amplitudeText :: rest) = some s.amplitudeText := by
    rw [argumentBehind_of_ne (by decide), argumentBehind_of_ne (toString_ne_flag _), argumentBehind_of_ne (by decide),
      argumentBehind_of_ne (toString_ne_flag _), argumentBehind_self]
  rw [args]
  cases s.device with
  | none => exact behind _
  | some n =>
    rw [Option.elim_some, List.append_assoc, List.cons_append, List.cons_append, List.nil_append,
      argumentBehind_of_ne (by decide)]
    exact (argumentBehind_of_ne (toString_ne_flag n) _ _).trans (behind _)

/-- The amplitude as the arguments give it is a plain numeral. -/
def HasPlainAmplitude (s : ToneSettings) : Prop :=
  ∃ text, argumentBehind "-a" s.args = some text ∧ IsPlainUnit text (unitPart s.amplitude.toModel.unpack)

/-- The arguments are those of no other device, frequency, rate or way to copy. -/
def ArgumentsTell (s : ToneSettings) : Prop :=
  ∀ s' : ToneSettings, s'.args = s.args →
    s'.device = s.device ∧ s'.frequency = s.frequency ∧ s'.sampleRate = s.sampleRate ∧ s'.zeroCopy = s.zeroCopy

theorem argumentsTell (s : ToneSettings) : s.ArgumentsTell := by
  intro s' same
  rw [args, args] at same
  generalize s.device = device, s'.device = device', s.zeroCopy = zeroCopy, s'.zeroCopy = zeroCopy' at same ⊢
  -- A device and `-z` change the length of the list.
  cases device with
  | none =>
    cases device' with
    | none => cases zeroCopy <;> cases zeroCopy' <;> simp_all
    | some n' => cases zeroCopy <;> cases zeroCopy' <;> simp at same
  | some n =>
    cases device' with
    | none => cases zeroCopy <;> cases zeroCopy' <;> simp at same
    | some n' => cases zeroCopy <;> cases zeroCopy' <;> simp_all

end ToneSettings

/-- **The arguments tell the settings**, and the amplitude is a plain numeral among them, but for what is no number and
for zero with a minus sign. -/
theorem tone_arguments_plain_iff (s : ToneSettings) :
    (s.HasPlainAmplitude ↔ s.amplitude.isNaN = false ∧ s.amplitude ≠ -0.0)
      ∧ (s.amplitude.isNaN = true → argumentBehind "-a" s.args = some "NaN")
      ∧ (s.amplitude = -0.0 → argumentBehind "-a" s.args = some "-0.000000")
      ∧ s.ArgumentsTell := by
  have behind := s.argumentBehind_args
  have written {text : String} (same : s.amplitudeText = text) (other : text.toList[1]? ≠ some '.') :
      ¬s.HasPlainAmplitude := by
    rintro ⟨text', argument, plain⟩
    rw [behind, Option.some.injEq] at argument
    exact other (same ▸ argument ▸ plain.point)
  rcases s.amplitudeText_cases with ⟨nan, text⟩ | ⟨zero, text⟩ | ⟨number, other, plain⟩
  · refine ⟨iff_of_false (written text (by decide)) fun plain => ?_, fun _ => text ▸ behind, fun zero => ?_,
      s.argumentsTell⟩
    · rw [nan] at plain
      cases plain.1
    · rw [zero] at nan
      cases nan
  · refine ⟨iff_of_false (written text (by decide)) fun plain => plain.2 zero, fun nan => ?_, fun _ => text ▸ behind,
      s.argumentsTell⟩
    rw [zero] at nan
    cases nan
  · refine ⟨iff_of_true ⟨_, behind, plain⟩ ⟨number, other⟩, fun nan => ?_, fun zero => absurd zero other,
      s.argumentsTell⟩
    rw [number] at nan
    cases nan

/-- The two numbers at work: neither is written as the zero that both are cut to. -/
theorem tone_arguments_without_plain_amplitude :
    argumentBehind "-a" ({ amplitude := 0 / 0 } : ToneSettings).args = some "NaN"
      ∧ argumentBehind "-a" ({ amplitude := -0.0 } : ToneSettings).args = some "-0.000000"
      ∧ ({ amplitude := -1 } : ToneSettings).HasPlainAmplitude :=
  ⟨(tone_arguments_plain_iff { amplitude := 0 / 0 }).2.1 (by decide +kernel),
    (tone_arguments_plain_iff { amplitude := -0.0 }).2.2.1 rfl,
    (tone_arguments_plain_iff { amplitude := -1 }).1.2 ⟨by decide +kernel, by decide +kernel⟩⟩

/-- So the amplitude among the arguments need not be a plain numeral. -/
theorem not_forall_tone_arguments_plain : ¬∀ s : ToneSettings, s.HasPlainAmplitude ∧ s.ArgumentsTell := by
  intro all
  obtain ⟨text, argument, plain⟩ := (all { amplitude := 0 / 0 }).1
  have word : argumentBehind "-a" ({ amplitude := 0 / 0 } : ToneSettings).args = some "NaN" := by
    decide +kernel
  rw [word, Option.some.injEq] at argument
  exact absurd plain.point (argument ▸ by decide)

end Panadapter
