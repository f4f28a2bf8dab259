import Panadapter.Proofs.Decimal.Bounds

/-!
# Values

A number that is neither an infinity nor a NaN has a rational value (`value`), and canonical numbers are compared as
their values are (`rank_lt_iff_value_lt`). So a number that is cut to the unit interval by comparisons becomes the
nearest one there (`value_cut`).
-/

namespace Panadapter.Decimal

open Float.Model (UnpackedFloat)
open Float.Model.UnpackedFloat (Sign)

variable {spec : Float.Model.Format} {a b one : UnpackedFloat} {m n : ℕ} {e f : ℤ}

/-! ## Values and ranks -/

/-- A number with a sign. -/
def signed : Sign → ℚ → ℚ
  | .positive, x => x
  | .negative, x => -x

/-- The value of a number. What is an infinity or no number gets zero, which means nothing. -/
def value : UnpackedFloat → ℚ
  | .finite s m e _ => signed s (m * 2 ^ e)
  | _ => 0

@[simp] theorem value_zero (s : Sign) : value (.zero s) = 0 := rfl

@[simp] theorem value_positive (pos : 0 < m) : value (.finite .positive m e pos) = m * 2 ^ e := rfl

@[simp] theorem value_negative (pos : 0 < m) : value (.finite .negative m e pos) = -(m * 2 ^ e) := rfl

theorem canonicalIn_zero (spec : Float.Model.Format) (s : Sign) : CanonicalIn spec (.zero s) := trivial

theorem scale_pos (pos : 0 < m) (e : ℤ) : (0 : ℚ) < m * 2 ^ e :=
  mul_pos (Nat.cast_pos.2 pos) (two_zpow_pos e)

theorem toLex_lt_iff (kind e m f n : ℤ) :
    (toLex (kind, toLex (e, m)) : ℤ ×ₗ ℤ ×ₗ ℤ) < toLex (kind, toLex (f, n)) ↔ e < f ∨ e = f ∧ m < n := by
  simp [Prod.Lex.toLex_lt_toLex]

theorem kind_le {i j : ℤ} {x y : ℤ ×ₗ ℤ} (le : (toLex (i, x) : ℤ ×ₗ ℤ ×ₗ ℤ) ≤ toLex (j, y)) : i ≤ j :=
  (Prod.Lex.toLex_le_toLex.1 le).elim le_of_lt fun same => same.1.le

theorem value_lt_of_rank_lt (ca : CanonicalIn spec a) (cb : CanonicalIn spec b) (fa : a.isFinite = true)
    (fb : b.isFinite = true) (lt : rank a < rank b) : value a < value b := by
  cases a with
  | notANumber => cases fa
  | infinity s => cases fa
  | zero s =>
    cases b with
    | notANumber => cases fb
    | infinity t => cases fb
    | zero t => exact absurd lt (lt_irrefl _)
    | finite t n f pos =>
      cases t with
      | positive => exact scale_pos pos f
      | negative => exact absurd (kind_le lt.le) (by decide)
  | finite s m e pos =>
    cases b with
    | notANumber => cases fb
    | infinity t => cases fb
    | zero t =>
      cases s with
      | positive => exact absurd (kind_le lt.le) (by decide)
      | negative => exact neg_neg_of_pos (scale_pos pos e)
    | finite t n f pos' =>
      cases s with
      | positive =>
        cases t with
        | positive =>
          rw [rank_positive, rank_positive, toLex_lt_iff] at lt
          exact ca.scale_lt cb (by omega)
        | negative => exact absurd (kind_le lt.le) (by decide)
      | negative =>
        cases t with
        | positive => exact (neg_neg_of_pos (scale_pos pos e)).trans (scale_pos pos' f)
        | negative =>
          rw [rank_negative, rank_negative, toLex_lt_iff] at lt
          exact neg_lt_neg (cb.scale_lt ca (by omega))

/-- The rank tells the value. -/
theorem value_eq (a : UnpackedFloat) :
    value a = ((ofLex (ofLex (rank a)).2).2 : ℚ) * 2 ^ ((ofLex (rank a)).1 * (ofLex (ofLex (rank a)).2).1) := by
  have none (e : ℤ) : (0 : ℚ) = ((0 : ℤ) : ℚ) * 2 ^ e := by
    rw [Int.cast_zero, zero_mul]
  cases a with
  | notANumber => exact none _
  | zero s => exact none _
  | infinity s => cases s <;> exact none _
  | finite s m e =>
    cases s with
    | positive =>
      show (m : ℚ) * 2 ^ e = ((m : ℤ) : ℚ) * 2 ^ (1 * e)
      rw [one_mul, Int.cast_natCast]
    | negative =>
      show -((m : ℚ) * 2 ^ e) = ((-(m : ℤ) : ℤ) : ℚ) * 2 ^ (-1 * -e)
      rw [neg_mul_neg, one_mul, Int.cast_neg, Int.cast_natCast, neg_mul]

/-- Numbers are compared as their values are. -/
theorem rank_lt_iff_value_lt (ca : CanonicalIn spec a) (cb : CanonicalIn spec b) (fa : a.isFinite = true)
    (fb : b.isFinite = true) : rank a < rank b ↔ value a < value b := by
  refine ⟨value_lt_of_rank_lt ca cb fa fb, fun lt => ?_⟩
  rcases lt_trichotomy (rank a) (rank b) with below | same | above
  · exact below
  · rw [value_eq, value_eq, same] at lt
    exact absurd lt (lt_irrefl _)
  · exact absurd lt (value_lt_of_rank_lt cb ca fb fa above).not_gt

theorem rank_le_iff_value_le (ca : CanonicalIn spec a) (cb : CanonicalIn spec b) (fa : a.isFinite = true)
    (fb : b.isFinite = true) : rank a ≤ rank b ↔ value a ≤ value b := by
  rw [← not_lt, ← not_lt, rank_lt_iff_value_lt cb ca fb fa]

/-! ## The unit interval -/

/-- The number of the unit interval that is nearest to a number; zero for what is no number. -/
def unitPart : UnpackedFloat → ℚ
  | .infinity .positive => 1
  | .infinity .negative => 0
  | a => max 0 (min 1 (value a))

theorem unitPart_of_isFinite (finite : a.isFinite = true) : unitPart a = max 0 (min 1 (value a)) := by
  cases a with
  | infinity s => cases finite
  | _ => rfl

theorem unitPart_notANumber : unitPart .notANumber = 0 := max_eq_left (min_le_right _ _)

theorem unitPart_zero (s : Sign) : unitPart (.zero s) = 0 := max_eq_left (min_le_right _ _)

theorem unitPart_mem (a : UnpackedFloat) : 0 ≤ unitPart a ∧ unitPart a ≤ 1 := by
  cases finite : a.isFinite with
  | true =>
    rw [unitPart_of_isFinite finite]
    exact ⟨le_max_left _ _, max_le zero_le_one (min_le_left _ _)⟩
  | false =>
    cases a with
    | notANumber => exact ⟨le_max_left _ _, max_le zero_le_one (min_le_left _ _)⟩
    | infinity s =>
      cases s with
      | positive => exact ⟨zero_le_one, le_rfl⟩
      | negative => exact ⟨le_rfl, zero_le_one⟩
    | _ => cases finite

theorem unitPart_of_neg (ca : CanonicalIn spec a) (neg : rank a < rank (.zero .positive)) : unitPart a = 0 := by
  cases finite : a.isFinite with
  | true =>
    have := (rank_lt_iff_value_lt ca (canonicalIn_zero spec _) finite rfl).1 neg
    rw [value_zero] at this
    rw [unitPart_of_isFinite finite, max_eq_left ((min_le_right _ _).trans this.le)]
  | false =>
    cases a with
    | notANumber => exact absurd neg (lt_irrefl _)
    | infinity s =>
      cases s with
      | positive => exact absurd neg (by decide)
      | negative => rfl
    | _ => cases finite

theorem rank_lt_infinity (finite : a.isFinite = true) : rank a < rank (.infinity .positive) := by
  refine Prod.Lex.toLex_lt_toLex.2 (.inl ?_)
  cases a with
  | notANumber => cases finite
  | infinity s => cases finite
  | zero s => exact show (0 : ℤ) < 2 by decide
  | finite s => cases s with
    | positive => exact show (1 : ℤ) < 2 by decide
    | negative => exact show (-1 : ℤ) < 2 by decide

variable (co : CanonicalIn spec one) (fo : one.isFinite = true) (value_one : value one = 1)
include co fo value_one

theorem rank_zero_lt_one : rank (.zero .positive) < rank one :=
  (rank_lt_iff_value_lt (canonicalIn_zero spec _) co rfl fo).2 (by rw [value_one]; exact zero_lt_one)

theorem unitPart_of_above (ca : CanonicalIn spec a) (number : a.isNaN = false) (above : rank one < rank a) :
    unitPart a = 1 := by
  cases finite : a.isFinite with
  | true =>
    have := (rank_lt_iff_value_lt co ca fo finite).1 above
    rw [value_one] at this
    rw [unitPart_of_isFinite finite, min_eq_left this.le]
    exact max_eq_right zero_le_one
  | false =>
    have pos := rank_zero_lt_one co fo value_one
    cases a with
    | notANumber => cases number
    | infinity s =>
      cases s with
      | positive => rfl
      | negative => exact absurd (pos.trans above) (by decide)
    | _ => cases finite

theorem unitPart_of_between (ca : CanonicalIn spec a) (number : a.isNaN = false)
    (low : ¬rank a < rank (.zero .positive)) (high : ¬rank one < rank a) :
    a.isFinite = true ∧ unitPart a = value a := by
  have finite : a.isFinite = true := by
    cases a with
    | notANumber => cases number
    | infinity s =>
      cases s with
      | positive => exact absurd (rank_lt_infinity fo) high
      | negative => exact absurd (show rank (.infinity .negative) < rank (.zero .positive) by decide) low
    | _ => rfl
  rw [rank_lt_iff_value_lt ca (canonicalIn_zero spec _) finite rfl, value_zero, not_lt] at low
  rw [rank_lt_iff_value_lt co ca fo finite, value_one, not_lt] at high
  exact ⟨finite, by rw [unitPart_of_isFinite finite, min_eq_right high, max_eq_right low]⟩

/-- A number cut to the unit interval by comparisons. -/
def cut (one a : UnpackedFloat) : UnpackedFloat :=
  if rank a < rank (.zero .positive) then .zero .positive else if rank one < rank a then one else a

/-- A number that is cut becomes the nearest one of the unit interval. -/
theorem value_cut (ca : CanonicalIn spec a) (number : a.isNaN = false) :
    (cut one a).isFinite = true ∧ value (cut one a) = unitPart a := by
  unfold cut
  by_cases below : rank a < rank (.zero .positive)
  · rw [if_pos below, unitPart_of_neg ca below]
    exact ⟨rfl, rfl⟩
  · rw [if_neg below]
    by_cases above : rank one < rank a
    · rw [if_pos above, unitPart_of_above co fo value_one ca number above]
      exact ⟨fo, value_one⟩
    · rw [if_neg above]
      obtain ⟨finite, same⟩ := unitPart_of_between co fo value_one ca number below above
      exact ⟨finite, same.symm⟩

/-- Of the numbers that stay as they are, only zero can have a minus sign. -/
theorem cut_eq_minus_zero_iff : cut one a = .zero .negative ↔ a = .zero .negative := by
  have other : one ≠ .zero .negative := by
    rintro rfl
    exact zero_ne_one value_one
  unfold cut
  by_cases below : rank a < rank (.zero .positive)
  · rw [if_pos below]
    refine iff_of_false nofun ?_
    rintro rfl
    exact lt_irrefl _ below
  · rw [if_neg below]
    by_cases above : rank one < rank a
    · rw [if_pos above]
      refine iff_of_false other ?_
      rintro rfl
      exact lt_irrefl _ (above.trans (rank_zero_lt_one co fo value_one))
    · rw [if_neg above]

end Panadapter.Decimal
