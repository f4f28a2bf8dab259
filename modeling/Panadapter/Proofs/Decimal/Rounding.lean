import Mathlib.Algebra.Order.Field.Power
import Mathlib.Algebra.Order.Ring.Rat
import Mathlib.Tactic.Ring

/-!
# Rounding

A number in parts, `m · 2 ^ e`, is rounded to a format: the bits that the format does not keep are dropped, and the rest
is rounded to the nearest. If that makes it one bit too long, one more is dropped.

* What is left of the bits is no less than their floor, and no more than their ceiling (`roundBits_within`,
  `roundBits_le`).
* A number that does not exceed a value of the format does not exceed it when rounded (`roundParts_le`).
* A rounded number is canonical (`canonical_roundParts`).
-/

namespace Panadapter.Decimal

open Float.Model (UnpackedFloat totalExponent)
open Float.Model.UnpackedFloat (Accuracy ExtendedMantissa Sign roundWithAccuracy shiftToTargetExponent)

variable {spec : Float.Model.Format} {m k : ℕ} {e : ℤ} {bound : ℚ}

/-! ## Bits dropped from a mantissa -/

/-- A mantissa without its last `k` bits, and what is remembered of these. -/
def dropBits (m k : ℕ) : ExtendedMantissa := ExtendedMantissa.ofMantissaAndAccuracy m .exact >>> k

@[simp] theorem mantissa_dropBits (m k : ℕ) : (dropBits m k).mantissa = m / 2 ^ k := by
  induction k with
  | zero => exact (Nat.div_one m).symm
  | succ k ih =>
    show (dropBits m k).mantissa / 2 = m / 2 ^ (k + 1)
    rw [ih, Nat.div_div_eq_div_mul, Nat.pow_succ]

/-- Where nothing is lost, nothing is remembered. -/
theorem bits_dropBits (whole : 2 ^ k ∣ m) :
    (dropBits m k).roundBit = false ∧ (dropBits m k).stickyBit = false := by
  induction k with
  | zero => exact ⟨rfl, rfl⟩
  | succ k ih =>
    obtain ⟨round, sticky⟩ := ih ((Nat.pow_dvd_pow 2 (Nat.le_succ k)).trans whole)
    have even : m / 2 ^ k % 2 = 0 := by
      obtain ⟨n, rfl⟩ := whole
      rw [Nat.pow_succ, Nat.mul_assoc, Nat.mul_div_cancel_left _ (Nat.two_pow_pos k), Nat.mul_mod_right]
    refine ⟨?_, ?_⟩
    · show ((dropBits m k).mantissa % 2 != 0) = false
      rw [mantissa_dropBits, even]
      rfl
    · show ((dropBits m k).roundBit || (dropBits m k).stickyBit) = false
      rw [round, sticky]
      rfl

/-- What is left of a mantissa, rounded to the nearest. -/
def roundBits (m k : ℕ) : ℕ := (dropBits m k).roundedMantissa

theorem roundedMantissa_within (x : ExtendedMantissa) :
    x.mantissa ≤ x.roundedMantissa ∧ x.roundedMantissa ≤ x.mantissa + 1 := by
  rcases x with ⟨n, _ | _, _ | _⟩
  · exact ⟨Nat.le_refl n, Nat.le_succ n⟩
  · exact ⟨Nat.le_refl n, Nat.le_succ n⟩
  · show n ≤ n + n % 2 ∧ n + n % 2 ≤ n + 1
    omega
  · exact ⟨Nat.le_succ n, Nat.le_refl _⟩

theorem roundBits_within (m k : ℕ) : m / 2 ^ k ≤ roundBits m k ∧ roundBits m k ≤ m / 2 ^ k + 1 := by
  rw [← mantissa_dropBits]
  exact roundedMantissa_within _

theorem roundBits_of_dvd (whole : 2 ^ k ∣ m) : roundBits m k = m / 2 ^ k := by
  have exactly (x : ExtendedMantissa) (round : x.roundBit = false) (sticky : x.stickyBit = false) :
      x.roundedMantissa = x.mantissa := by
    rcases x with ⟨n, r, s⟩
    subst round sticky
    rfl
  obtain ⟨round, sticky⟩ := bits_dropBits whole
  rw [roundBits, exactly _ round sticky, mantissa_dropBits]

/-- Rounding goes no further than to the next whole number. -/
theorem roundBits_le {n : ℕ} (le : m ≤ n * 2 ^ k) : roundBits m k ≤ n := by
  by_cases whole : 2 ^ k ∣ m
  · rw [roundBits_of_dvd whole]
    exact Nat.div_le_of_le_mul (by rwa [Nat.mul_comm])
  · have lt : m < n * 2 ^ k := Nat.lt_of_le_of_ne le fun same => whole ⟨n, same.trans (Nat.mul_comm _ _)⟩
    have := (Nat.div_lt_iff_lt_mul (Nat.two_pow_pos k)).2 lt
    have := (roundBits_within m k).2
    omega

@[simp] theorem roundBits_zero (m : ℕ) : roundBits m 0 = m := by
  rw [roundBits_of_dvd (Nat.one_dvd m), Nat.pow_zero, Nat.div_one]

/-! ## Numbers rounded to a format -/

/-- The place of the last bit that a format keeps of a number. -/
def lastPlaceIn (spec : Float.Model.Format) (m : ℕ) (e : ℤ) : ℤ := spec.targetExponent (totalExponent m e)

/-- How many bits a format does not keep. -/
def excess (spec : Float.Model.Format) (m : ℕ) (e : ℤ) : ℕ := (lastPlaceIn spec m e - e).toNat

/-- A number rounded to a format: its bits are rounded, and once more if they have become too many. -/
def roundParts (spec : Float.Model.Format) (m : ℕ) (e : ℤ) : ℕ × ℤ :=
  let k := excess spec m e
  let r := roundBits m k
  (r / 2 ^ excess spec r (e + k), e + k + excess spec r (e + k))

theorem finite_congr {s : Sign} {m n : ℕ} {e f : ℤ} {pos : 0 < m} {pos' : 0 < n} (mantissa : m = n) (exponent : e = f) :
    UnpackedFloat.finite s m e pos = .finite s n f pos' := by
  cases mantissa
  cases exponent
  rfl

theorem roundWithAccuracy_eq (spec : Float.Model.Format) (s : Sign) (m : ℕ) (e : ℤ) :
    roundWithAccuracy spec s m e .exact =
      if h : (roundParts spec m e).1 = 0 then .zero s
      else .finite s (roundParts spec m e).1 (roundParts spec m e).2 (Nat.pos_of_ne_zero h) := by
  have parts : (shiftToTargetExponent spec (roundBits m (excess spec m e)) (e + excess spec m e) .exact).1.mantissa
      = (roundParts spec m e).1 := mantissa_dropBits _ _
  by_cases zero : (roundParts spec m e).1 = 0
  · rw [dif_pos zero]
    exact dif_pos (parts.trans zero)
  · rw [dif_neg zero]
    exact (dif_neg fun none => zero (parts.symm.trans none)).trans (finite_congr parts rfl)

/-! ## Values of rounded numbers -/

theorem two_zpow_pos (e : ℤ) : (0 : ℚ) < 2 ^ e := zpow_pos two_pos e

theorem scale_mono {m n : ℕ} (le : m ≤ n) (e : ℤ) : (m : ℚ) * 2 ^ e ≤ n * 2 ^ e := by
  rw [mul_le_mul_iff_left₀ (two_zpow_pos e)]
  exact_mod_cast le

theorem pow_scale (k : ℕ) (e : ℤ) : ((2 ^ k : ℕ) : ℚ) * 2 ^ e = 2 ^ (k + e) := by
  rw [zpow_add₀ two_ne_zero, zpow_natCast]
  push_cast
  rfl

/-- A number written with another exponent. -/
theorem scale_add (x : ℚ) (e : ℤ) (k : ℕ) : x * 2 ^ (e + k) = x * 2 ^ k * 2 ^ e := by
  rw [zpow_add₀ two_ne_zero, zpow_natCast]
  ring

theorem scale_le_scale_iff {n : ℕ} : (m : ℚ) * 2 ^ e ≤ n * 2 ^ (e + k) ↔ m ≤ n * 2 ^ k := by
  rw [scale_add, mul_le_mul_iff_left₀ (two_zpow_pos e)]
  exact_mod_cast Iff.rfl

/-- Fewer bits make a number no larger. -/
theorem div_scale_le (m k : ℕ) (e : ℤ) : ((m / 2 ^ k : ℕ) : ℚ) * 2 ^ (e + k) ≤ m * 2 ^ e := by
  rw [scale_add, mul_le_mul_iff_left₀ (two_zpow_pos e)]
  exact_mod_cast Nat.div_mul_le_self m (2 ^ k)

/-- The leading bit of a number. -/
theorem two_zpow_log2_le {m : ℕ} (pos : m ≠ 0) (e : ℤ) : (2 : ℚ) ^ (m.log2 + e) ≤ m * 2 ^ e := by
  rw [← pow_scale]
  exact scale_mono (Nat.log2_self_le pos) e

/-- A value that a format has, as long as its exponents have no end. -/
def IsOfFormat (spec : Float.Model.Format) (x : ℚ) : Prop :=
  ∃ (n : ℕ) (f : ℤ), n < 2 ^ spec.mantissaBits ∧ spec.minExponent ≤ f ∧ x = n * 2 ^ f

theorem IsOfFormat.nonneg (of : IsOfFormat spec bound) : 0 ≤ bound := by
  obtain ⟨n, f, -, -, rfl⟩ := of
  exact mul_nonneg (Nat.cast_nonneg n) (two_zpow_pos f).le

/-- Where bits are not kept, every value of the format from there on is a multiple of the last bit that is. -/
theorem lastPlaceIn_le {n : ℕ} {f : ℤ} (pos : m ≠ 0) (short : n < 2 ^ spec.mantissaBits) (low : spec.minExponent ≤ f)
    (le : (m : ℚ) * 2 ^ e ≤ n * 2 ^ f) : lastPlaceIn spec m e ≤ f := by
  by_contra below
  have place : lastPlaceIn spec m e = m.log2 + 1 + e - spec.mantissaBits := by
    simp only [lastPlaceIn, Float.Model.Format.targetExponent, totalExponent] at *
    omega
  have above : (n : ℚ) * 2 ^ f < 2 ^ (m.log2 + e) :=
    calc (n : ℚ) * 2 ^ f
      _ < (2 ^ spec.mantissaBits : ℕ) * 2 ^ f := by
        rw [mul_lt_mul_iff_left₀ (two_zpow_pos f)]
        exact_mod_cast short
      _ = 2 ^ (spec.mantissaBits + f) := pow_scale _ f
      _ ≤ 2 ^ (m.log2 + e) := zpow_le_zpow_right₀ one_le_two (by omega)
  exact absurd le (not_le.2 (above.trans_le (two_zpow_log2_le pos e)))

/-- Rounded bits do not go beyond a value of the format. -/
theorem roundBits_scale_le (of : IsOfFormat spec bound) (le : (m : ℚ) * 2 ^ e ≤ bound) :
    (roundBits m (excess spec m e) : ℚ) * 2 ^ (e + excess spec m e) ≤ bound := by
  by_cases none : excess spec m e = 0
  · rw [none, roundBits_zero, Nat.cast_zero, add_zero]
    exact le
  by_cases zero : m = 0
  · rw [zero, roundBits_of_dvd (Nat.dvd_zero _), Nat.zero_div, Nat.cast_zero, zero_mul]
    exact of.nonneg
  obtain ⟨n, f, short, low, rfl⟩ := of
  have place : e + excess spec m e = lastPlaceIn spec m e := by
    unfold excess at none ⊢
    omega
  have upto := lastPlaceIn_le zero short low le
  obtain ⟨j, f_eq⟩ : ∃ j : ℕ, f = e + excess spec m e + j := ⟨(f - (e + excess spec m e)).toNat, by omega⟩
  have value : (n : ℚ) * 2 ^ f = (n * 2 ^ j : ℕ) * 2 ^ (e + excess spec m e) := by
    rw [f_eq, scale_add]
    push_cast
    rfl
  rw [value] at le ⊢
  exact scale_mono (roundBits_le (scale_le_scale_iff.1 le)) _

/-- Rounding does not go beyond a value of the format. -/
theorem roundParts_le (of : IsOfFormat spec bound) (le : (m : ℚ) * 2 ^ e ≤ bound) :
    ((roundParts spec m e).1 : ℚ) * 2 ^ (roundParts spec m e).2 ≤ bound :=
  (div_scale_le _ _ _).trans (roundBits_scale_le of le)

/-! ## Canonical numbers -/

/-- A number as a format has it, as long as exponents have no end: with all bits of the mantissa, or with the least
exponent. -/
structure IsCanonical (spec : Float.Model.Format) (m : ℕ) (e : ℤ) : Prop where
  short : m < 2 ^ spec.mantissaBits
  low : spec.minExponent ≤ e
  full : spec.minExponent < e → 2 ^ (spec.mantissaBits - 1) ≤ m

theorem mantissaBits_pos (spec : Float.Model.Format) : 0 < spec.mantissaBits :=
  Nat.lt_of_lt_of_le one_pos (Nat.le_add_right 1 _)

theorem minExponent_le_lastPlaceIn (spec : Float.Model.Format) (m : ℕ) (e : ℤ) :
    spec.minExponent ≤ lastPlaceIn spec m e :=
  le_max_right _ _

/-- The bits that are left are no more than a format keeps, or they are one more by rounding. -/
theorem roundBits_canonical (pos : m ≠ 0) (fits : e ≤ lastPlaceIn spec m e) :
    roundBits m (excess spec m e) ≤ 2 ^ spec.mantissaBits
      ∧ (spec.minExponent < lastPlaceIn spec m e → 2 ^ (spec.mantissaBits - 1) ≤ roundBits m (excess spec m e)) := by
  obtain ⟨floor, ceiling⟩ := roundBits_within m (excess spec m e)
  have bits := mantissaBits_pos spec
  have place : lastPlaceIn spec m e = max (m.log2 + 1 + e - spec.mantissaBits) spec.minExponent := rfl
  refine ⟨?_, fun above => ?_⟩
  · have wide : m < 2 ^ spec.mantissaBits * 2 ^ excess spec m e := by
      rw [← Nat.pow_add]
      exact Nat.lt_of_lt_of_le Nat.lt_log2_self (Nat.pow_le_pow_right two_pos (by unfold excess; omega))
    have := (Nat.div_lt_iff_lt_mul (Nat.two_pow_pos _)).2 wide
    omega
  · have whole : 2 ^ (spec.mantissaBits - 1) * 2 ^ excess spec m e ≤ m := by
      rw [← Nat.pow_add]
      exact Nat.le_trans (Nat.pow_le_pow_right two_pos (by unfold excess; omega)) (Nat.log2_self_le pos)
    exact ((Nat.le_div_iff_mul_le (Nat.two_pow_pos _)).2 whole).trans floor

/-- Bits that are no more than a format keeps, or one more by rounding, are those of a canonical number once that one is
dropped, and it is zero. -/
theorem canonical_carry {r : ℕ} {p : ℤ} (low : spec.minExponent ≤ p) (upto : r ≤ 2 ^ spec.mantissaBits)
    (full : spec.minExponent < p → 2 ^ (spec.mantissaBits - 1) ≤ r) :
    IsCanonical spec (r / 2 ^ excess spec r p) (p + excess spec r p)
      ∧ ((r / 2 ^ excess spec r p : ℕ) : ℚ) * 2 ^ (p + excess spec r p) = r * 2 ^ p := by
  have bits := mantissaBits_pos spec
  have again : lastPlaceIn spec r p = max (r.log2 + 1 + p - spec.mantissaBits) spec.minExponent := rfl
  rcases Nat.lt_or_eq_of_le upto with less | rfl
  · have none : excess spec r p = 0 := by
      have log : r.log2 + 1 ≤ spec.mantissaBits := by
        by_cases zero : r = 0
        · rw [zero]
          exact bits
        · exact (Nat.log2_lt zero).2 less
      unfold excess
      omega
    rw [none, Nat.pow_zero, Nat.div_one, Nat.cast_zero, add_zero]
    exact ⟨⟨less, low, full⟩, rfl⟩
  · have one : excess spec (2 ^ spec.mantissaBits) p = 1 := by
      rw [Nat.log2_two_pow] at again
      unfold excess
      omega
    have half : 2 ^ spec.mantissaBits / 2 = 2 ^ (spec.mantissaBits - 1) := by
      rw [← Nat.pow_div bits two_pos]
      rfl
    rw [one, Nat.pow_one, half]
    refine ⟨⟨Nat.pow_lt_pow_right one_lt_two (by omega), by omega, fun _ => Nat.le_refl _⟩, ?_⟩
    rw [pow_scale, pow_scale]
    exact congrArg _ (by omega)

/-- A number with no bits too few is rounded to a canonical one. -/
theorem canonical_roundParts (pos : m ≠ 0) (fits : e ≤ lastPlaceIn spec m e) :
    IsCanonical spec (roundParts spec m e).1 (roundParts spec m e).2 := by
  obtain ⟨upto, full⟩ := roundBits_canonical pos fits
  have low := minExponent_le_lastPlaceIn spec m e
  have place : e + excess spec m e = lastPlaceIn spec m e := by
    unfold excess
    omega
  unfold roundParts
  dsimp only
  rw [place]
  exact (canonical_carry low upto full).1

end Panadapter.Decimal
