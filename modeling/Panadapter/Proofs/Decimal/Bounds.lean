import Panadapter.Proofs.Decimal.Packing
import Panadapter.Proofs.Decimal.Ranks

/-!
# Bounds of products

A double lies within a bound if it is no number, or no further from zero than the bound (`Within`).

* A number between -1 and 1 lies within 1 (`within_one`).
* A product lies within every double that the product of the bounds does not exceed (`within_mul`): rounding does not
  go beyond it.
-/

namespace Panadapter.Decimal

open Float.Model (UnpackedFloat)
open Float.Model.UnpackedFloat (roundWithAccuracy)
open Float.Model.Format (binary64)

variable {spec : Float.Model.Format} {a b : UnpackedFloat} {x y : Float} {bound p q r : ℚ} {m n : ℕ} {e f : ℤ}

/-- What is no number, or no further from zero than a bound. -/
def Within (bound : ℚ) : UnpackedFloat → Prop
  | .notANumber => True
  | .infinity _ => False
  | .zero _ => True
  | .finite _ m e _ => (m : ℚ) * 2 ^ e ≤ bound

/-- A number from -1 to 1, or no number. -/
def InUnit (x : Float) : Prop := x.isNaN = true ∨ -1 ≤ x ∧ x ≤ 1

/-! ## Numbers between two others -/

/-- Of canonical numbers, one with a smaller exponent is smaller, and so is one with a smaller mantissa. -/
theorem IsCanonical.scale_lt (c : IsCanonical spec m e) (d : IsCanonical spec n f) (order : e < f ∨ e = f ∧ m < n) :
    (m : ℚ) * 2 ^ e < n * 2 ^ f := by
  rcases order with below | ⟨rfl, lt⟩
  · have bits := mantissaBits_pos spec
    have full : 2 ^ (spec.mantissaBits - 1) ≤ n := d.full (c.low.trans_lt below)
    calc (m : ℚ) * 2 ^ e
      _ < (2 ^ spec.mantissaBits : ℕ) * 2 ^ e := by
        rw [mul_lt_mul_iff_left₀ (two_zpow_pos e)]
        exact_mod_cast c.short
      _ = 2 ^ (spec.mantissaBits + e) := pow_scale _ e
      _ ≤ 2 ^ ((spec.mantissaBits - 1 : ℕ) + f) := zpow_le_zpow_right₀ one_le_two (by omega)
      _ = (2 ^ (spec.mantissaBits - 1) : ℕ) * 2 ^ f := (pow_scale _ f).symm
      _ ≤ n * 2 ^ f := scale_mono full f
  · rw [mul_lt_mul_iff_left₀ (two_zpow_pos e)]
    exact_mod_cast lt

theorem IsCanonical.scale_le (c : IsCanonical spec m e) (d : IsCanonical spec n f) (order : e < f ∨ e = f ∧ m ≤ n) :
    (m : ℚ) * 2 ^ e ≤ n * 2 ^ f := by
  rcases order with below | ⟨rfl, le⟩
  · exact (c.scale_lt d (.inl below)).le
  · exact scale_mono le e

/-- A number between a canonical one and its negative lies within it. -/
theorem within_of_rank {positive : 0 < n} (c : CanonicalIn spec a) (d : IsCanonical spec n f)
    (above : rank (.finite .negative n f positive) ≤ rank a) (below : rank a ≤ rank (.finite .positive n f positive)) :
    Within (n * 2 ^ f) a := by
  rw [rank_negative] at above
  rw [rank_positive] at below
  cases a with
  | notANumber => trivial
  | zero s => trivial
  | infinity s =>
    cases s with
    | negative => exact absurd above (not_le.2 (Prod.Lex.toLex_lt_toLex.2 (.inl (show (-2 : ℤ) < -1 by decide))))
    | positive => exact absurd below (not_le.2 (Prod.Lex.toLex_lt_toLex.2 (.inl (show (1 : ℤ) < 2 by decide))))
  | finite s m e =>
    refine IsCanonical.scale_le c d ?_
    cases s with
    | negative =>
      rw [rank_negative, toLex_le_iff] at above
      omega
    | positive =>
      rw [rank_positive, toLex_le_iff] at below
      omega

/-- A number from -1 to 1 lies within 1. -/
theorem within_one (between : InUnit x) : Within 1 x.toModel.unpack := by
  rcases between with nan | ⟨above, below⟩
  · have none : x.toModel.unpack.isNaN = true := nan
    cases parts : x.toModel.unpack with
    | notANumber => trivial
    | _ =>
      rw [parts] at none
      cases none
  · have minus_one : (-1 : Float).toModel.unpack = .finite .negative (2 ^ 52) (-52) (Nat.two_pow_pos 52) := rfl
    have one : (1 : Float).toModel.unpack = .finite .positive (2 ^ 52) (-52) (Nat.two_pow_pos 52) := rfl
    obtain ⟨-, -, above⟩ := le_iff_rank.1 above
    obtain ⟨-, -, below⟩ := le_iff_rank.1 below
    rw [minus_one] at above
    rw [one] at below
    have canonical : IsCanonical binary64 (2 ^ 52) (-52) := ⟨by decide, by decide, by decide⟩
    have within := within_of_rank (canonicalIn_unpack binary64 _) canonical above below
    have value : ((2 ^ 52 : ℕ) : ℚ) * 2 ^ (-52 : ℤ) = 1 := by norm_num
    rwa [value] at within

/-! ## Products -/

/-- A product of canonical numbers has no bits too few. -/
theorem IsCanonical.mul_fits (c : IsCanonical spec m e) (d : IsCanonical spec n f) (pos : 0 < m) (pos' : 0 < n) :
    e + f ≤ lastPlaceIn spec (m * n) (e + f) := by
  have place : lastPlaceIn spec (m * n) (e + f)
      = max ((m * n).log2 + 1 + (e + f) - spec.mantissaBits) spec.minExponent := rfl
  have least := minExponent_eq spec
  have bits := mantissaBits_pos spec
  have long {k : ℕ} (full : 2 ^ (spec.mantissaBits - 1) ≤ k) (le : k ≤ m * n) :
      spec.mantissaBits - 1 ≤ (m * n).log2 :=
    (Nat.le_log2 (Nat.mul_pos pos pos').ne').2 (full.trans le)
  by_cases first : spec.minExponent < e
  · have := long (c.full first) (Nat.le_mul_of_pos_right m pos')
    omega
  · by_cases second : spec.minExponent < f
    · have := long (d.full second) (Nat.le_mul_of_pos_left n pos)
      omega
    · have := spec.hm
      omega

theorem within_mul_unpacked (c : CanonicalIn spec a) (d : CanonicalIn spec b) (hp : Within p a) (hq : Within q b)
    (le : p * q ≤ r) (of : IsOfFormat spec r) : CanonicalIn spec (a.mul spec b) ∧ Within r (a.mul spec b) := by
  cases a with
  | notANumber => exact ⟨trivial, trivial⟩
  | infinity s => exact hp.elim
  | zero s =>
    cases b with
    | infinity t => exact hq.elim
    | _ => exact ⟨trivial, trivial⟩
  | finite s m e pos =>
    cases b with
    | notANumber => exact ⟨trivial, trivial⟩
    | infinity t => exact hq.elim
    | zero t => exact ⟨trivial, trivial⟩
    | finite t n f pos' =>
      have value : ((m * n : ℕ) : ℚ) * 2 ^ (e + f) = m * 2 ^ e * (n * 2 ^ f) := by
        rw [zpow_add₀ two_ne_zero]
        push_cast
        ring
      have product : ((m * n : ℕ) : ℚ) * 2 ^ (e + f) ≤ p * q := by
        rw [value]
        exact mul_le_mul hp hq (mul_nonneg (Nat.cast_nonneg n) (two_zpow_pos f).le)
          ((mul_nonneg (Nat.cast_nonneg m) (two_zpow_pos e).le).trans hp)
      show CanonicalIn spec (roundWithAccuracy ..) ∧ Within r (roundWithAccuracy ..)
      rw [roundWithAccuracy_eq]
      by_cases zero : (roundParts spec (m * n) (e + f)).1 = 0
      · rw [dif_pos zero]
        exact ⟨trivial, trivial⟩
      · rw [dif_neg zero]
        exact ⟨canonical_roundParts (Nat.mul_pos pos pos').ne' (c.mul_fits d pos pos'),
          roundParts_le of (product.trans le)⟩

/-- A double lies within a bound if it did so before it was packed. -/
theorem within_unpack_pack (c : CanonicalIn binary64 a) (within : Within bound a) (small : bound < 2 ^ 1024) :
    Within bound (Float.Model.pack a).unpack := by
  cases a with
  | notANumber => trivial
  | infinity s => exact within.elim
  | zero s => cases s <;> trivial
  | finite s m e pos =>
    have same : (Float.Model.pack (.finite s m e pos)).unpack = .finite s m e pos :=
      unpack_pack_finite (by decide) pos c (within.trans_lt small)
    rw [same]
    exact within

/-- A product lies within a double that the product of the bounds does not exceed. -/
theorem within_mul (hx : Within p x.toModel.unpack) (hy : Within q y.toModel.unpack) (le : p * q ≤ r)
    (of : IsOfFormat binary64 r) (small : r < 2 ^ 1024) : Within r (x * y).toModel.unpack := by
  obtain ⟨canonical, within⟩ :=
    within_mul_unpacked (canonicalIn_unpack binary64 _) (canonicalIn_unpack binary64 _) hx hy le of
  exact within_unpack_pack canonical within small

end Panadapter.Decimal
