import Mathlib.Data.Prod.Lex
import Panadapter.Proofs.Decimal.Comparison

/-!
# Ranks of numbers

Every number but a NaN has a rank, and numbers are compared by their ranks: by kind and sign, then by exponent, then by
mantissa. Both zeros have the same rank. A NaN is not below, above or equal to anything.

* A comparison is that of the ranks (`compare_eq_compare_rank`).
* So it is for doubles (`le_iff_rank`, `lt_iff_rank`) and singles (`single_le_iff_rank`, `single_lt_iff_rank`,
  `single_beq_iff_rank`).
-/

namespace Panadapter.Decimal

open Float.Model (UnpackedFloat)

/-- The rank of a number; a NaN gets that of zero, which means nothing. -/
def rank : UnpackedFloat → ℤ ×ₗ ℤ ×ₗ ℤ
  | .infinity .negative => toLex (-2, toLex (0, 0))
  | .finite .negative m e _ => toLex (-1, toLex (-e, -m))
  | .zero _ => toLex (0, toLex (0, 0))
  | .finite .positive m e _ => toLex (1, toLex (e, m))
  | .infinity .positive => toLex (2, toLex (0, 0))
  | .notANumber => toLex (0, toLex (0, 0))

theorem rank_negative {m : ℕ} {e : ℤ} (pos : 0 < m) :
    rank (.finite .negative m e pos) = toLex (-1, toLex (-e, -(m : ℤ))) := rfl

theorem rank_positive {m : ℕ} {e : ℤ} (pos : 0 < m) :
    rank (.finite .positive m e pos) = toLex (1, toLex (e, (m : ℤ))) := rfl

variable {a b : UnpackedFloat}

/-- Finite numbers of one sign are compared by exponent and mantissa. -/
theorem compare_toLex (kind e m f n : ℤ) :
    compare (toLex (kind, toLex (e, m)) : ℤ ×ₗ ℤ ×ₗ ℤ) (toLex (kind, toLex (f, n)))
      = (compare e f).then (compare m n) := by
  simp [Prod.Lex.compare_def, compareLex, compareOn]

theorem toLex_le_iff (kind e m f n : ℤ) :
    (toLex (kind, toLex (e, m)) : ℤ ×ₗ ℤ ×ₗ ℤ) ≤ toLex (kind, toLex (f, n)) ↔ e < f ∨ e = f ∧ m ≤ n := by
  simp [Prod.Lex.toLex_le_toLex]

theorem compare_natCast (m n : ℕ) : compare (m : ℤ) n = compare m n := by
  simp only [compare, compareOfLessAndEq, Int.ofNat_lt, Int.ofNat_inj]

theorem compare_neg_neg (x y : ℤ) : compare (-x) (-y) = (compare x y).swap := by
  rw [Int.compare_swap]
  have lt : -x < -y ↔ y < x := by omega
  have eq : -x = -y ↔ y = x := by omega
  simp only [compare, compareOfLessAndEq, lt, eq]

theorem compare_eq_compare_rank (ha : a.isNaN = false) (hb : b.isNaN = false) :
    a.compare b = some (compare (rank a) (rank b)) := by
  cases a with
  | notANumber => cases ha
  | zero s =>
    cases b with
    | notANumber => cases hb
    | zero t => rfl
    | infinity t => cases t <;> rfl
    | finite t => cases t <;> rfl
  | infinity s =>
    cases b with
    | notANumber => cases hb
    | zero t => cases s <;> rfl
    | infinity t => cases s <;> cases t <;> rfl
    | finite t => cases s <;> cases t <;> rfl
  | finite s m e =>
    cases b with
    | notANumber => cases hb
    | zero t => cases s <;> rfl
    | infinity t => cases s <;> cases t <;> rfl
    | finite t n f =>
      cases s <;> cases t
      · show some ((compare e f).then (compare m n)).swap = _
        rw [rank_negative, rank_negative, compare_toLex, compare_neg_neg, compare_neg_neg, compare_natCast, Ordering.swap_then]
      · rfl
      · rfl
      · show some ((compare e f).then (compare m n)) = _
        rw [rank_positive, rank_positive, compare_toLex, compare_natCast]

theorem compare_eq_none (h : a.isNaN = true ∨ b.isNaN = true) : a.compare b = none := by
  cases a with
  | notANumber => cases b <;> rfl
  | _ =>
    cases b with
    | notANumber => rfl
    | _ => rcases h with h | h <;> cases h

/-- What holds of the comparison of two numbers holds of that of their ranks. -/
theorem any_compare_iff (p : Ordering → Bool) : (a.compare b).any p = true
    ↔ a.isNaN = false ∧ b.isNaN = false ∧ p (compare (rank a) (rank b)) = true := by
  cases ha : a.isNaN with
  | true => simp [compare_eq_none (.inl ha)]
  | false =>
    cases hb : b.isNaN with
    | true => simp [compare_eq_none (.inr hb)]
    | false => simp [compare_eq_compare_rank ha hb]

theorem le_unpacked_iff : a.le b = true ↔ a.isNaN = false ∧ b.isNaN = false ∧ rank a ≤ rank b :=
  (any_compare_iff _).trans (and_congr_right fun _ => and_congr_right fun _ =>
    Ordering.ne_gt_iff_isLE.symm.trans compare_le_iff_le)

theorem lt_unpacked_iff : a.lt b = true ↔ a.isNaN = false ∧ b.isNaN = false ∧ rank a < rank b := by
  have any : a.lt b = (a.compare b).any fun o => o == .lt := by
    unfold UnpackedFloat.lt
    cases a.compare b <;> rfl
  rw [any, any_compare_iff, beq_iff_eq, compare_lt_iff_lt]

theorem beq_unpacked_iff : a.beq b = true ↔ a.isNaN = false ∧ b.isNaN = false ∧ rank a = rank b := by
  have any : a.beq b = (a.compare b).any fun o => o == .eq := by
    unfold UnpackedFloat.beq
    cases a.compare b <;> rfl
  rw [any, any_compare_iff, beq_iff_eq, compare_eq_iff_eq]

/-! ## Doubles and singles -/

section

variable {x y : Float}

theorem le_iff_rank :
    x ≤ y ↔ x.isNaN = false ∧ y.isNaN = false ∧ rank x.toModel.unpack ≤ rank y.toModel.unpack :=
  decide_eq_true_iff.trans le_unpacked_iff

theorem lt_iff_rank :
    x < y ↔ x.isNaN = false ∧ y.isNaN = false ∧ rank x.toModel.unpack < rank y.toModel.unpack :=
  decide_eq_true_iff.trans lt_unpacked_iff

end

section

variable {x y : Float32}

theorem single_le_iff_rank :
    x ≤ y ↔ x.isNaN = false ∧ y.isNaN = false ∧ rank x.toModel.unpack ≤ rank y.toModel.unpack :=
  decide_eq_true_iff.trans le_unpacked_iff

theorem single_lt_iff_rank :
    x < y ↔ x.isNaN = false ∧ y.isNaN = false ∧ rank x.toModel.unpack < rank y.toModel.unpack :=
  decide_eq_true_iff.trans lt_unpacked_iff

theorem single_beq_iff_rank :
    (x == y) = true ↔ x.isNaN = false ∧ y.isNaN = false ∧ rank x.toModel.unpack = rank y.toModel.unpack :=
  beq_unpacked_iff

end

end Panadapter.Decimal
