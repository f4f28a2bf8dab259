import Mathlib.Data.Int.Log
import Mathlib.Data.Rat.Floor
import Mathlib.Tactic.FieldSimp
import Mathlib.Tactic.Linarith
import Mathlib.Tactic.NormNum
import Panadapter.Proofs.Decimal.Values

/-!
# The nearest number

What a value is rounded to depends on nothing else: it is the nearest number of the format, and of two the one with the
even mantissa (`nearestIn`). So rounding keeps the order of values (`nearestIn_mono`).

* A mantissa and two bits hold what rounding needs of a value (`Holds.roundedMantissa`), also when bits are dropped
  (`Holds.shiftRight`).
* Quotients and products are rounded so (`div_rounds`, `mul_rounds`), and packed as they are unless they are too large
  (`Rounds.unpack_pack`).
-/

namespace Panadapter.Decimal

open Float.Model (UnpackedFloat totalExponent)
open Float.Model.UnpackedFloat (Accuracy ExtendedMantissa Sign accuracyOfFraction divCore pack roundWithAccuracy
  shiftToTargetExponent unpack)

variable {spec : Float.Model.Format} {x y : ℚ} {m n k : ℕ} {e f : ℤ}

/-! ## Halves -/

/-- The nearest whole number, and of two the even one. -/
def halfEven (x : ℚ) : ℕ :=
  if x - ⌊x⌋₊ < 1 / 2 then ⌊x⌋₊ else if 1 / 2 < x - ⌊x⌋₊ then ⌊x⌋₊ + 1 else ⌊x⌋₊ + ⌊x⌋₊ % 2

theorem halfEven_within (x : ℚ) : ⌊x⌋₊ ≤ halfEven x ∧ halfEven x ≤ ⌊x⌋₊ + 1 := by
  unfold halfEven
  by_cases below : x - ⌊x⌋₊ < 1 / 2
  · rw [if_pos below]
    omega
  · rw [if_neg below]
    by_cases above : 1 / 2 < x - ⌊x⌋₊
    · rw [if_pos above]
      omega
    · rw [if_neg above]
      omega

theorem halfEven_mono (le : x ≤ y) : halfEven x ≤ halfEven y := by
  have floors : ⌊x⌋₊ ≤ ⌊y⌋₊ := Nat.floor_mono le
  rcases floors.lt_or_eq with less | same
  · have := (halfEven_within x).2
    have := (halfEven_within y).1
    omega
  · have rests : x - ⌊x⌋₊ ≤ y - ⌊y⌋₊ := by
      rw [same]
      exact sub_le_sub_right le _
    unfold halfEven
    rw [same] at rests ⊢
    by_cases below : y - ⌊y⌋₊ < 1 / 2
    · rw [if_pos below, if_pos (rests.trans_lt below)]
    · rw [if_neg below]
      by_cases above : 1 / 2 < x - ⌊y⌋₊
      · rw [if_neg above.le.not_gt, if_pos above, if_pos (above.trans_le rests)]
      · rw [if_neg above]
        by_cases above : 1 / 2 < y - ⌊y⌋₊
        · rw [if_pos above]
          by_cases below : x - ⌊y⌋₊ < 1 / 2
          · rw [if_pos below]
            omega
          · rw [if_neg below]
            omega
        · rw [if_neg above]
          by_cases below : x - ⌊y⌋₊ < 1 / 2
          · rw [if_pos below]
            omega
          · rw [if_neg below]

@[simp] theorem halfEven_natCast (n : ℕ) : halfEven n = n := by
  rw [halfEven, Nat.floor_natCast, sub_self, if_pos (by norm_num)]

/-- What a mantissa and the two bits behind it hold: the last one stands for any rest below a half of the first. -/
def Holds (a : ExtendedMantissa) (x : ℚ) : Prop :=
  ∃ rest : ℚ, 0 ≤ rest ∧ rest < 1 / 2 ∧ (a.stickyBit = true ↔ 0 < rest)
    ∧ x = a.mantissa + (a.roundBit.toNat : ℚ) / 2 + rest

namespace Holds

variable {a : ExtendedMantissa}

theorem floor (holds : Holds a x) : ⌊x⌋₊ = a.mantissa := by
  obtain ⟨rest, nonneg, small, -, rfl⟩ := holds
  have bit : (a.roundBit.toNat : ℚ) / 2 ≤ 1 / 2 ∧ 0 ≤ (a.roundBit.toNat : ℚ) / 2 := by
    cases a.roundBit <;> norm_num
  rw [Nat.floor_eq_iff (by linarith [Nat.cast_nonneg (α := ℚ) a.mantissa])]
  constructor <;> linarith

theorem roundedMantissa (holds : Holds a x) : a.roundedMantissa = halfEven x := by
  have floor := holds.floor
  obtain ⟨rest, nonneg, small, sticky, rfl⟩ := holds
  rw [halfEven, floor]
  rcases a with ⟨n, round, _ | _⟩
  · have none : rest = 0 := le_antisymm (not_lt.1 fun pos => Bool.false_ne_true (sticky.2 pos)) nonneg
    subst none
    cases round with
    | false =>
      rw [if_pos (by norm_num)]
      rfl
    | true =>
      rw [if_neg (by norm_num), if_neg (by norm_num)]
      rfl
  · have some : 0 < rest := sticky.1 rfl
    cases round with
    | false =>
      rw [if_pos (by norm_num; linarith)]
      rfl
    | true =>
      rw [if_neg (by norm_num; linarith), if_pos (by norm_num; linarith)]
      rfl

/-- A bit dropped is still told by the bits behind the mantissa. -/
theorem shiftRightOne (holds : Holds a x) : Holds a.shiftRightOne (x / 2) := by
  obtain ⟨rest, nonneg, small, sticky, rfl⟩ := holds
  rcases a with ⟨n, round, tail⟩
  have split : (n : ℚ) = (n / 2 : ℕ) * 2 + (n % 2 : ℕ) := by exact_mod_cast (Nat.div_add_mod' n 2).symm
  have bit : ((n % 2 != 0).toNat : ℚ) = (n % 2 : ℕ) := by
    rcases Nat.mod_two_eq_zero_or_one n with zero | one
    · rw [zero]
      rfl
    · rw [one]
      rfl
  refine ⟨((round.toNat : ℚ) / 2 + rest) / 2, ?_, ?_, ?_, ?_⟩
  · positivity
  · cases round <;> norm_num <;> linarith
  · show (round || tail) = true ↔ _
    cases round with
    | false =>
      rw [Bool.false_or, sticky, Bool.toNat_false, Nat.cast_zero, zero_div, zero_add]
      exact ⟨half_pos, fun half => by linarith⟩
    | true =>
      rw [Bool.true_or, Bool.toNat_true, Nat.cast_one]
      exact iff_of_true rfl (by linarith)
  · show _ = ((n / 2 : ℕ) : ℚ) + ((n % 2 != 0).toNat : ℚ) / 2 + _
    rw [bit]
    show ((n : ℚ) + (round.toNat : ℚ) / 2 + rest) / 2 = _
    linarith

theorem shiftRight (holds : Holds a x) (k : ℕ) : Holds (a >>> k) (x / 2 ^ k) := by
  induction k with
  | zero =>
    rw [pow_zero, div_one]
    exact holds
  | succ k ih =>
    rw [pow_succ, ← div_div]
    exact ih.shiftRightOne

end Holds

theorem holds_exact (m : ℕ) : Holds (.ofMantissaAndAccuracy m .exact) m :=
  ⟨0, le_refl 0, by norm_num, iff_of_false Bool.false_ne_true (lt_irrefl 0),
    by norm_num [ExtendedMantissa.ofMantissaAndAccuracy]⟩

theorem holds_fraction (num : ℕ) {den : ℕ} (pos : 0 < den) :
    Holds (.ofMantissaAndAccuracy (num / den) (accuracyOfFraction (num % den) den)) (num / den) := by
  have pos' : (0 : ℚ) < den := Nat.cast_pos.2 pos
  have value : (num : ℚ) / den = (num / den : ℕ) + (num % den : ℕ) / den := by
    have : (num : ℚ) = (num / den : ℕ) * den + (num % den : ℕ) := by exact_mod_cast (Nat.div_add_mod' num den).symm
    rw [div_eq_iff pos'.ne', add_mul, div_mul_cancel₀ _ pos'.ne']
    exact this
  have small := Nat.mod_lt num pos
  rw [value, accuracyOfFraction]
  generalize num / den = q, num % den = r at *
  by_cases zero : r = 0
  · rw [if_pos zero, zero, Nat.cast_zero, zero_div, add_zero]
    exact holds_exact q
  · rw [if_neg zero]
    have some : 0 < (r : ℚ) := Nat.cast_pos.2 (Nat.pos_of_ne_zero zero)
    have below : (r : ℚ) < den := Nat.cast_lt.2 small
    rcases lt_trichotomy (2 * r) den with lt | eq | gt
    · rw [compare_lt_iff_lt.2 lt]
      have lt : (2 : ℚ) * r < den := by exact_mod_cast lt
      refine ⟨r / den, by positivity, ?_, iff_of_true rfl (by positivity), ?_⟩
      · rw [div_lt_div_iff₀ pos' two_pos]
        linarith
      · show _ = (q : ℚ) + ((0 : ℕ) : ℚ) / 2 + _
        norm_num
    · rw [compare_eq_iff_eq.2 eq]
      have eq : (2 : ℚ) * r = den := by exact_mod_cast eq
      refine ⟨0, le_refl 0, by norm_num, iff_of_false Bool.false_ne_true (lt_irrefl 0), ?_⟩
      show _ = (q : ℚ) + ((1 : ℕ) : ℚ) / 2 + _
      rw [← eq]
      field_simp
      norm_num
    · rw [compare_gt_iff_gt.2 gt]
      have gt : (den : ℚ) < 2 * r := by exact_mod_cast gt
      have more : 1 / 2 < (r : ℚ) / den := by
        rw [div_lt_div_iff₀ two_pos pos']
        linarith
      have less : (r : ℚ) / den < 1 := (div_lt_one pos').2 below
      refine ⟨r / den - 1 / 2, by linarith, by linarith, iff_of_true rfl (by linarith), ?_⟩
      show _ = (q : ℚ) + ((1 : ℕ) : ℚ) / 2 + _
      norm_num

/-! ## The nearest number -/

/-- The place of the last bit that a format keeps of a value. -/
def placeIn (spec : Float.Model.Format) (x : ℚ) : ℤ := max (Int.log 2 x + 1 - spec.mantissaBits) spec.minExponent

/-- The nearest number of a format, as long as its exponents have no end; of two the one with the even mantissa. -/
def nearestIn (spec : Float.Model.Format) (x : ℚ) : ℚ := halfEven (x / 2 ^ placeIn spec x) * 2 ^ placeIn spec x

@[simp] theorem nearestIn_zero (spec : Float.Model.Format) : nearestIn spec 0 = 0 := by
  rw [nearestIn, zero_div, ← Nat.cast_zero, halfEven_natCast, Nat.cast_zero, zero_mul]

theorem nearestIn_nonneg (spec : Float.Model.Format) (x : ℚ) : 0 ≤ nearestIn spec x :=
  mul_nonneg (Nat.cast_nonneg _) (two_zpow_pos _).le

/-- A power of two is a number of bits at a place that is not above it. -/
theorem two_zpow_div {i p : ℤ} (le : p ≤ i) : (2 : ℚ) ^ i / 2 ^ p = (2 ^ (i - p).toNat : ℕ) := by
  rw [← zpow_sub₀ two_ne_zero, Nat.cast_pow, ← zpow_natCast, Int.toNat_of_nonneg (sub_nonneg.2 le)]
  rfl

/-- No more bits are kept than a mantissa has. -/
theorem div_placeIn_lt (spec : Float.Model.Format) (x : ℚ) :
    x / 2 ^ placeIn spec x < (2 ^ spec.mantissaBits : ℕ) := by
  have place : Int.log 2 x + 1 - spec.mantissaBits ≤ placeIn spec x := le_max_left _ _
  rw [div_lt_iff₀ (two_zpow_pos _), pow_scale]
  exact (Int.lt_zpow_succ_log_self one_lt_two x).trans_le (zpow_le_zpow_right₀ one_le_two (by omega))

/-- Above the least exponent, no fewer bits are kept. -/
theorem le_div_placeIn (pos : 0 < x) (above : spec.minExponent < placeIn spec x) :
    ((2 ^ (spec.mantissaBits - 1) : ℕ) : ℚ) ≤ x / 2 ^ placeIn spec x := by
  have place : placeIn spec x = max (Int.log 2 x + 1 - spec.mantissaBits) spec.minExponent := rfl
  have bits := mantissaBits_pos spec
  have leading : (2 : ℚ) ^ Int.log 2 x ≤ x := Int.zpow_log_le_self one_lt_two pos
  rw [le_div_iff₀ (two_zpow_pos _), pow_scale]
  exact (zpow_le_zpow_right₀ one_le_two (by omega)).trans leading

/-- A power of two that is not below the least exponent is rounded to itself. -/
theorem nearestIn_two_zpow {i : ℤ} (low : spec.minExponent ≤ i) : nearestIn spec (2 ^ i) = 2 ^ i := by
  have bits := mantissaBits_pos spec
  have log : Int.log 2 ((2 : ℚ) ^ i) = i := Int.log_zpow one_lt_two i
  have le : placeIn spec (2 ^ i) ≤ i := by
    simp only [placeIn, log]
    omega
  rw [nearestIn, two_zpow_div le, halfEven_natCast, ← two_zpow_div le, div_mul_cancel₀ _ (two_zpow_pos _).ne']

/-- Rounding keeps the order of values. -/
theorem nearestIn_mono (nonneg : 0 ≤ x) (le : x ≤ y) : nearestIn spec x ≤ nearestIn spec y := by
  rcases nonneg.eq_or_lt with rfl | pos
  · rw [nearestIn_zero]
    exact nearestIn_nonneg spec y
  have pos' := pos.trans_le le
  have logs : Int.log 2 x ≤ Int.log 2 y := Int.log_mono_right pos le
  have place (x : ℚ) : placeIn spec x = max (Int.log 2 x + 1 - spec.mantissaBits) spec.minExponent := rfl
  have place_x := place x
  have place_y := place y
  rcases (show placeIn spec x ≤ placeIn spec y by omega).eq_or_lt with same | less
  · rw [nearestIn, nearestIn, same]
    exact mul_le_mul_of_nonneg_right
      (Nat.cast_le.2 (halfEven_mono (div_le_div_of_nonneg_right le (two_zpow_pos _).le))) (two_zpow_pos _).le
  · -- A power of two stands between them, which both places tell apart.
    have bits := mantissaBits_pos spec
    calc nearestIn spec x
      _ ≤ halfEven (2 ^ Int.log 2 y / 2 ^ placeIn spec x) * 2 ^ placeIn spec x := by
        refine mul_le_mul_of_nonneg_right (Nat.cast_le.2 (halfEven_mono ?_)) (two_zpow_pos _).le
        refine div_le_div_of_nonneg_right ?_ (two_zpow_pos _).le
        exact (Int.lt_zpow_succ_log_self one_lt_two x).le.trans (zpow_le_zpow_right₀ one_le_two (by omega))
      _ = 2 ^ Int.log 2 y := by
        rw [two_zpow_div (by omega), halfEven_natCast, ← two_zpow_div (by omega),
          div_mul_cancel₀ _ (two_zpow_pos _).ne']
      _ = halfEven (2 ^ Int.log 2 y / 2 ^ placeIn spec y) * 2 ^ placeIn spec y := by
        rw [two_zpow_div (by omega), halfEven_natCast, ← two_zpow_div (by omega),
          div_mul_cancel₀ _ (two_zpow_pos _).ne']
      _ ≤ nearestIn spec y := by
        refine mul_le_mul_of_nonneg_right (Nat.cast_le.2 (halfEven_mono ?_)) (two_zpow_pos _).le
        exact div_le_div_of_nonneg_right (Int.zpow_log_le_self one_lt_two pos') (two_zpow_pos _).le

/-! ## Rounded numbers -/

/-- What a value with a sign is rounded to. -/
def Rounds (spec : Float.Model.Format) (s : Sign) (x : ℚ) (a : UnpackedFloat) : Prop :=
  a = .zero s ∧ nearestIn spec x = 0
    ∨ ∃ m e pos, a = .finite s m e pos ∧ IsCanonical spec m e ∧ (m : ℚ) * 2 ^ e = nearestIn spec x

/-- The place is that of the exact value, whatever stands behind the mantissa. -/
theorem lastPlaceIn_eq {acc : Accuracy} (holds : Holds (.ofMantissaAndAccuracy m acc) x) (pos : 0 < x)
    (fits : e ≤ lastPlaceIn spec m e) : lastPlaceIn spec m e = placeIn spec (x * 2 ^ e) := by
  have floor : ⌊x⌋₊ = m := by
    rw [holds.floor]
    cases acc with
    | exact => rfl
    | inexact o => cases o <;> rfl
  have above : x < m + 1 := floor ▸ Nat.lt_floor_add_one x
  have below : (m : ℚ) ≤ x := floor ▸ Nat.floor_le pos.le
  have pos' : 0 < x * 2 ^ e := mul_pos pos (two_zpow_pos e)
  have last : lastPlaceIn spec m e = max (m.log2 + 1 + e - spec.mantissaBits) spec.minExponent := rfl
  have place : placeIn spec (x * 2 ^ e)
      = max (Int.log 2 (x * 2 ^ e) + 1 - spec.mantissaBits) spec.minExponent := rfl
  have bits : 1 < spec.mantissaBits := by
    have := mantissaBits_eq spec
    have := spec.hm
    omega
  by_cases zero : m = 0
  · -- Nothing but the rest: the exponent is the least one already.
    subst zero
    have small : x * 2 ^ e < 2 ^ e := by
      rw [mul_lt_iff_lt_one_left (two_zpow_pos e)]
      simpa using above
    have log : Int.log 2 (x * 2 ^ e) < e := (Int.lt_zpow_iff_log_lt one_lt_two pos').1 small
    have none : Nat.log2 0 = 0 := rfl
    omega
  · have log : Int.log 2 (x * 2 ^ e) = m.log2 + e := by
      have low : (2 : ℚ) ^ (m.log2 + e) ≤ x * 2 ^ e :=
        (two_zpow_log2_le zero e).trans (mul_le_mul_of_nonneg_right below (two_zpow_pos e).le)
      have high : x * 2 ^ e < (2 : ℚ) ^ (m.log2 + e + 1) :=
        calc x * 2 ^ e
          _ < (m + 1 : ℕ) * 2 ^ e := by
            rw [mul_lt_mul_iff_left₀ (two_zpow_pos e), Nat.cast_succ]
            exact above
          _ ≤ (2 ^ (m.log2 + 1) : ℕ) * 2 ^ e := scale_mono (Nat.succ_le_of_lt Nat.lt_log2_self) e
          _ = 2 ^ (m.log2 + e + 1) := by
            rw [pow_scale]
            exact congrArg _ (by push_cast; ring)
      have := (Int.zpow_le_iff_le_log one_lt_two pos').1 low
      have := (Int.lt_zpow_iff_log_lt one_lt_two pos').1 high
      omega
    rw [last, place, log]
    congr 1
    ring

/-- A number with no bits too few is rounded to the nearest one. -/
theorem rounds_roundWithAccuracy (s : Sign) {acc : Accuracy} (holds : Holds (.ofMantissaAndAccuracy m acc) x)
    (pos : 0 < x) (fits : e ≤ lastPlaceIn spec m e) :
    Rounds spec s (x * 2 ^ e) (roundWithAccuracy spec s m e acc) := by
  have place : e + excess spec m e = placeIn spec (x * 2 ^ e) := by
    rw [← lastPlaceIn_eq holds pos fits]
    unfold excess
    omega
  have scaled : x / 2 ^ excess spec m e = x * 2 ^ e / 2 ^ placeIn spec (x * 2 ^ e) := by
    rw [← place, zpow_add₀ two_ne_zero, zpow_natCast, mul_comm ((2 : ℚ) ^ e),
      mul_div_mul_right _ _ (two_zpow_pos e).ne']
  have rounded := (holds.shiftRight (excess spec m e)).roundedMantissa
  generalize bits : (ExtendedMantissa.ofMantissaAndAccuracy m acc >>> excess spec m e).roundedMantissa = r at rounded
  have near : (r : ℚ) * 2 ^ (e + excess spec m e : ℤ) = nearestIn spec (x * 2 ^ e) := by
    rw [rounded, scaled, place]
    rfl
  have pos' : 0 < x * 2 ^ e := mul_pos pos (two_zpow_pos e)
  have upto : r ≤ 2 ^ spec.mantissaBits := by
    rw [rounded, scaled, ← halfEven_natCast (2 ^ spec.mantissaBits)]
    exact halfEven_mono (div_placeIn_lt spec _).le
  have full (above : spec.minExponent < e + excess spec m e) : 2 ^ (spec.mantissaBits - 1) ≤ r := by
    rw [rounded, scaled, ← halfEven_natCast (2 ^ (spec.mantissaBits - 1))]
    exact halfEven_mono (le_div_placeIn pos' (place ▸ above))
  obtain ⟨canonical, value⟩ := canonical_carry (place ▸ le_max_right _ _) upto full
  have parts : (shiftToTargetExponent spec
      (ExtendedMantissa.ofMantissaAndAccuracy m acc >>> excess spec m e).roundedMantissa
      (e + excess spec m e) .exact).1.mantissa = r / 2 ^ excess spec r (e + excess spec m e) :=
    bits ▸ mantissa_dropBits _ _
  by_cases zero : r / 2 ^ excess spec r (e + excess spec m e) = 0
  · rw [zero, Nat.cast_zero, zero_mul, near] at value
    exact .inl ⟨dif_pos (parts.trans zero), value.symm⟩
  · refine .inr ⟨_, _, Nat.pos_of_ne_zero zero, ?_, canonical, value.trans near⟩
    exact (dif_neg fun none => zero (parts.symm.trans none)).trans (finite_congr parts (by rw [← bits]; rfl))

/-! ## Quotients and products -/

/-- A quotient is computed with no bits too few. -/
theorem div_fits (pos : 0 < m) (pos' : 0 < n) {target : ℤ} {k : ℕ}
    (least : target = min (e - f) (spec.targetExponent (totalExponent m e - totalExponent n f)))
    (shift : (k : ℤ) = e - f - target) : target ≤ lastPlaceIn spec (m <<< k / n) target := by
  have place : lastPlaceIn spec (m <<< k / n) target
      = max ((m <<< k / n).log2 + 1 + target - spec.mantissaBits) spec.minExponent := rfl
  have aim : spec.targetExponent (totalExponent m e - totalExponent n f)
      = max (m.log2 + 1 + e - (n.log2 + 1 + f) - spec.mantissaBits) spec.minExponent := rfl
  by_cases low : target ≤ spec.minExponent
  · omega
  · have bits := mantissaBits_pos spec
    have long : 2 ^ (spec.mantissaBits - 1) ≤ m <<< k / n := by
      rw [Nat.le_div_iff_mul_le pos', Nat.shiftLeft_eq]
      calc 2 ^ (spec.mantissaBits - 1) * n
        _ ≤ 2 ^ (spec.mantissaBits - 1) * 2 ^ (n.log2 + 1) := Nat.mul_le_mul_left _ Nat.lt_log2_self.le
        _ = 2 ^ (spec.mantissaBits + n.log2) := by
          rw [← Nat.pow_add]
          exact congrArg _ (by omega)
        _ ≤ 2 ^ (m.log2 + k) := Nat.pow_le_pow_right two_pos (by omega)
        _ = 2 ^ m.log2 * 2 ^ k := Nat.pow_add _ _ _
        _ ≤ m * 2 ^ k := Nat.mul_le_mul_right _ (Nat.log2_self_le pos.ne')
    have log : spec.mantissaBits - 1 ≤ (m <<< k / n).log2 :=
      (Nat.le_log2 ((Nat.two_pow_pos _).trans_le long).ne').2 long
    omega

/-- A quotient is rounded to the nearest number. -/
theorem div_rounds (s t : Sign) (pos : 0 < m) (pos' : 0 < n) :
    Rounds spec (s / t) (m * 2 ^ e / (n * 2 ^ f)) ((UnpackedFloat.finite s m e pos).div spec (.finite t n f pos')) := by
  obtain ⟨target, least⟩ : ∃ target,
      target = min (e - f) (spec.targetExponent (totalExponent m e - totalExponent n f)) := ⟨_, rfl⟩
  obtain ⟨k, shift⟩ : ∃ k : ℕ, (k : ℤ) = e - f - target := ⟨(e - f - target).toNat, by omega⟩
  have core : divCore spec m e n f = (m <<< k / n, target, accuracyOfFraction (m <<< k % n) n) := by
    rw [divCore, ← least, ← shift, Int.toNat_natCast]
  have value : ((m <<< k : ℕ) : ℚ) / n * 2 ^ target = m * 2 ^ e / (n * 2 ^ f) := by
    rw [Nat.shiftLeft_eq, Nat.cast_mul, ← mul_div_right_comm, mul_assoc, pow_scale, shift, sub_add_cancel,
      zpow_sub₀ two_ne_zero, mul_div_assoc', div_div, mul_comm (n : ℚ)]
  have some : 0 < ((m <<< k : ℕ) : ℚ) / n := by
    rw [Nat.shiftLeft_eq]
    positivity
  show Rounds spec _ _ (roundWithAccuracy spec (s / t) (divCore spec m e n f).1 (divCore spec m e n f).2.1
    (divCore spec m e n f).2.2)
  rw [core, ← value]
  exact rounds_roundWithAccuracy (s / t) (holds_fraction (m <<< k) pos') some (div_fits pos pos' least shift)

/-- A product is rounded to the nearest number. -/
theorem mul_rounds (s t : Sign) (pos : 0 < m) (pos' : 0 < n) (c : IsCanonical spec m e) (d : IsCanonical spec n f) :
    Rounds spec (s * t) (m * 2 ^ e * (n * 2 ^ f)) ((UnpackedFloat.finite s m e pos).mul spec (.finite t n f pos')) := by
  have value : ((m * n : ℕ) : ℚ) * 2 ^ (e + f) = m * 2 ^ e * (n * 2 ^ f) := by
    rw [zpow_add₀ two_ne_zero]
    push_cast
    ring
  rw [← value]
  exact rounds_roundWithAccuracy (s * t) (holds_exact (m * n)) (Nat.cast_pos.2 (Nat.mul_pos pos pos'))
    (c.mul_fits d pos pos')

/-! ## Packed numbers -/

/-- A rounded number is packed as it is, or as an infinity if it is too large for its format. -/
theorem Rounds.unpack_pack {s : Sign} {a : UnpackedFloat} (rounds : Rounds spec s x a) (two : 2 ≤ spec.exponentBits) :
    nearestIn spec x < 2 ^ (spec.exponentBias + 1) ∧ unpack spec (pack spec a) = a
      ∨ 2 ^ (spec.exponentBias + 1) ≤ nearestIn spec x ∧ unpack spec (pack spec a) = .infinity s := by
  rcases rounds with ⟨rfl, none⟩ | ⟨m, e, pos, rfl, canonical, value⟩
  · rw [none]
    exact .inl ⟨by positivity, unpack_packedZero s⟩
  · rw [← value]
    rcases lt_or_ge ((m : ℚ) * 2 ^ e) (2 ^ (spec.exponentBias + 1)) with small | large
    · exact .inl ⟨small, unpack_pack_finite two pos canonical small⟩
    · exact .inr ⟨large, unpack_pack_infinite pos canonical large⟩

end Panadapter.Decimal
