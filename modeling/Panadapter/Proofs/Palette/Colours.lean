import Panadapter.Palette.Colour
import Panadapter.Proofs.Decimal.Nearest
import Panadapter.Proofs.Transport.Decoding

/-!
# Colours of magnitudes

A magnitude is divided by a reference and cut to the unit interval (`value_unitOf`). Division is rounded, so a larger
magnitude is no smaller fraction (`fraction_mono`), and one that is not below the reference is all of it
(`fraction_eq_one`).

* The colours outside of the interval are those of its ends (`Palette.colour_of_le_zero`, `Palette.colour_of_ge`).
* Shades of grey keep the order of magnitudes (`Palette.red_colour_mono`).
-/

namespace Panadapter

open Decimal
open Float.Model (UnpackedFloat)
open Float.Model.Format (binary32)
open Float.Model.UnpackedFloat (Sign pack unpack)

variable {x y u v w r : Float32} {a b : UnpackedFloat} {m n : ℕ} {e f : ℤ}

/-! ## Singles of the unit interval -/

/-- Whether a single is a number of the unit interval. -/
def InUnitInterval (u : Float32) : Prop :=
  u.toModel.unpack.isFinite = true ∧ 0 ≤ value u.toModel.unpack ∧ value u.toModel.unpack ≤ 1

theorem canonicalIn_single (x : Float32) : CanonicalIn binary32 x.toModel.unpack := canonicalIn_unpack _ _

theorem unpack_one : (1 : Float32).toModel.unpack = .finite .positive (2 ^ 23) (-23) (Nat.two_pow_pos 23) := rfl

theorem value_one : value (1 : Float32).toModel.unpack = 1 := by
  rw [unpack_one, value_positive]
  norm_num

theorem unpack_clampUnit (number : x.isNaN = false) :
    (clampUnit x).toModel.unpack = cut (1 : Float32).toModel.unpack x.toModel.unpack := by
  have zero : x < 0 ↔ x.isNaN = false ∧ _ ∧ rank x.toModel.unpack < rank (.zero .positive) := single_lt_iff_rank
  unfold clampUnit cut
  by_cases below : x < 0
  · rw [if_pos below, if_pos (zero.1 below).2.2]
    rfl
  · rw [if_neg below, if_neg fun lt => below (zero.2 ⟨number, rfl, lt⟩)]
    by_cases above : 1 < x
    · rw [if_pos above, if_pos (single_lt_iff_rank.1 above).2.2]
    · rw [if_neg above, if_neg fun lt => above (single_lt_iff_rank.2 ⟨rfl, number, lt⟩)]

theorem value_clampUnit (number : x.isNaN = false) :
    InUnitInterval (clampUnit x) ∧ value (clampUnit x).toModel.unpack = unitPart x.toModel.unpack := by
  obtain ⟨finite, same⟩ := value_cut (canonicalIn_single 1) rfl value_one (canonicalIn_single x) number
  rw [← unpack_clampUnit number] at finite same
  have within := unitPart_mem x.toModel.unpack
  exact ⟨⟨finite, same ▸ within.1, same ▸ within.2⟩, same⟩

/-- Zero has two signs. -/
theorem InUnitInterval.eq_zero (unit : InUnitInterval u) (zero : value u.toModel.unpack = 0) : u = 0 ∨ u = -0 := by
  obtain ⟨finite, -, -⟩ := unit
  cases parts : u.toModel.unpack with
  | notANumber => exact absurd (parts ▸ finite) nofun
  | infinity s => exact absurd (parts ▸ finite) nofun
  | zero s =>
    cases s with
    | positive => exact .inl (single_ext parts)
    | negative => exact .inr (single_ext parts)
  | finite s m e pos =>
    rw [parts] at zero
    cases s with
    | positive => exact absurd zero (scale_pos pos e).ne'
    | negative => exact absurd zero (neg_neg_of_pos (scale_pos pos e)).ne

theorem InUnitInterval.eq_one (unit : InUnitInterval u) (one : value u.toModel.unpack = 1) : u = 1 := by
  have same : rank u.toModel.unpack = rank (1 : Float32).toModel.unpack :=
    le_antisymm
      ((rank_le_iff_value_le (canonicalIn_single u) (canonicalIn_single 1) unit.1 rfl).2 (one.trans value_one.symm).le)
      ((rank_le_iff_value_le (canonicalIn_single 1) (canonicalIn_single u) rfl unit.1).2 (value_one.trans one.symm).le)
  rw [unpack_one, rank_positive] at same
  cases parts : u.toModel.unpack with
  | notANumber => exact absurd (parts ▸ unit.1) nofun
  | infinity s => exact absurd (parts ▸ unit.1) nofun
  | zero s =>
    rw [parts] at one
    exact absurd one zero_ne_one
  | finite s m e pos =>
    cases s with
    | positive =>
      rw [parts, rank_positive, toLex_inj, Prod.mk.injEq, toLex_inj, Prod.mk.injEq] at same
      exact single_ext (parts.trans (finite_congr (by exact_mod_cast same.2.2) same.2.1))
    | negative =>
      rw [parts] at one
      exact absurd one (by have := scale_pos pos e; rw [value_negative]; linarith)

/-! ## Fractions -/

theorem unpack_div (x y : Float32) :
    (x / y).toModel.unpack = unpack binary32 (pack binary32 (x.toModel.unpack.div binary32 y.toModel.unpack)) := rfl

theorem unpack_mul (x y : Float32) :
    (x * y).toModel.unpack = unpack binary32 (pack binary32 (x.toModel.unpack.mul binary32 y.toModel.unpack)) := rfl

theorem unpack_pack_notANumber : unpack binary32 (pack binary32 .notANumber) = .notANumber := rfl

theorem unitPart_packed_notANumber : unitPart (unpack binary32 (pack binary32 .notANumber)) = 0 :=
  (congrArg unitPart unpack_pack_notANumber).trans unitPart_notANumber

theorem unitPart_packed_zero (s : Sign) : unitPart (unpack binary32 (pack binary32 (.zero s))) = 0 :=
  (congrArg unitPart (unpack_packedZero s)).trans (unitPart_zero s)

theorem unitPart_packed_infinity (s : Sign) :
    unitPart (unpack binary32 (pack binary32 (.infinity s))) = unitPart (.infinity s) :=
  congrArg unitPart (unpack_packedInfinity s)

theorem unitPart_of_rounds {q : ℚ} (rounds : Rounds binary32 .positive q a) :
    unitPart (unpack binary32 (pack binary32 a)) = min 1 (nearestIn binary32 q) := by
  have near := nearestIn_nonneg binary32 q
  rcases rounds.unpack_pack (by decide) with ⟨-, same⟩ | ⟨large, same⟩
  · rw [same]
    rcases rounds with ⟨rfl, none⟩ | ⟨m, e, pos, rfl, -, value⟩
    · rw [unitPart_of_isFinite rfl, value_zero, none]
      exact max_eq_right (le_min zero_le_one le_rfl)
    · rw [unitPart_of_isFinite rfl, value_positive, value]
      exact max_eq_right (le_min zero_le_one near)
  · have one : (1 : ℚ) ≤ 2 ^ (binary32.exponentBias + 1) := one_le_pow₀ one_le_two
    rw [same, min_eq_left (one.trans large)]
    rfl

theorem unitPart_of_rounds_negative {q : ℚ} (rounds : Rounds binary32 .negative q a) :
    unitPart (unpack binary32 (pack binary32 a)) = 0 := by
  rcases rounds.unpack_pack (by decide) with ⟨-, same⟩ | ⟨-, same⟩
  · rw [same]
    rcases rounds with ⟨rfl, none⟩ | ⟨m, e, pos, rfl, -, value⟩
    · rfl
    · rw [unitPart_of_isFinite rfl, value_negative]
      exact max_eq_left ((min_le_right _ _).trans (neg_nonpos.2 (scale_pos pos e).le))
  · rw [same]
    rfl

/-- The fraction that a magnitude is of a reference, as it is computed and cut to the unit interval. -/
def fraction (reference : ℚ) : UnpackedFloat → ℚ
  | .finite .positive m e _ => min 1 (nearestIn binary32 (m * 2 ^ e / reference))
  | .infinity .positive => 1
  | _ => 0

theorem fraction_mem (reference : ℚ) (a : UnpackedFloat) : 0 ≤ fraction reference a ∧ fraction reference a ≤ 1 := by
  cases a with
  | notANumber => exact ⟨le_rfl, zero_le_one⟩
  | zero s => exact ⟨le_rfl, zero_le_one⟩
  | infinity s =>
    cases s with
    | positive => exact ⟨zero_le_one, le_rfl⟩
    | negative => exact ⟨le_rfl, zero_le_one⟩
  | finite s m e pos =>
    cases s with
    | positive => exact ⟨le_min zero_le_one (nearestIn_nonneg _ _), min_le_left _ _⟩
    | negative => exact ⟨le_rfl, zero_le_one⟩

theorem unitPart_div {positive : 0 < n} (reference : r.toModel.unpack = .finite .positive n f positive) :
    unitPart (v / r).toModel.unpack = fraction (n * 2 ^ f) v.toModel.unpack := by
  rw [unpack_div, reference]
  cases v.toModel.unpack with
  | notANumber => exact unitPart_packed_notANumber
  | zero s => cases s <;> exact unitPart_packed_zero _
  | infinity s => cases s <;> exact unitPart_packed_infinity _
  | finite s m e pos =>
    cases s with
    | positive => exact unitPart_of_rounds (div_rounds .positive .positive pos positive)
    | negative => exact unitPart_of_rounds_negative (div_rounds .negative .positive pos positive)

theorem unitPart_div_infinity (reference : r.toModel.unpack = .infinity .positive) :
    unitPart (v / r).toModel.unpack = 0 := by
  rw [unpack_div, reference]
  cases v.toModel.unpack with
  | notANumber => exact unitPart_packed_notANumber
  | zero s => cases s <;> exact unitPart_packed_zero _
  | infinity s => cases s <;> exact unitPart_packed_notANumber
  | finite s m e pos => cases s <;> exact unitPart_packed_zero _

section

variable {q : ℚ}

/-- A larger magnitude is no smaller fraction. -/
theorem fraction_mono (nonneg : 0 ≤ q) (ca : CanonicalIn binary32 a) (cb : CanonicalIn binary32 b)
    (number : b.isNaN = false) (le : rank a ≤ rank b) : fraction q a ≤ fraction q b := by
  have least (zero : fraction q a = 0) : fraction q a ≤ fraction q b := zero ▸ (fraction_mem q b).1
  have most (one : fraction q b = 1) : fraction q a ≤ fraction q b := one ▸ (fraction_mem q a).2
  cases a with
  | notANumber => exact least rfl
  | zero s => exact least rfl
  | infinity s =>
    cases s with
    | negative => exact least rfl
    | positive =>
      cases finite : b.isFinite with
      | true => exact absurd le (rank_lt_infinity finite).not_ge
      | false =>
        cases b with
        | notANumber => cases number
        | infinity t =>
          cases t with
          | positive => exact most rfl
          | negative => exact absurd le (by decide)
        | _ => cases finite
  | finite s m e pos =>
    cases s with
    | negative => exact least rfl
    | positive =>
      have above := (rank_le_iff_value_le ca cb rfl · |>.1 le)
      have some : 0 < (m : ℚ) * 2 ^ e := scale_pos pos e
      cases b with
      | notANumber => cases number
      | zero t => exact absurd (above rfl) some.not_ge
      | infinity t =>
        cases t with
        | positive => exact most rfl
        | negative => exact absurd (kind_le le) (by decide)
      | finite t n f pos' =>
        cases t with
        | positive =>
          exact min_le_min_left _ (nearestIn_mono (div_nonneg some.le nonneg)
            (div_le_div_of_nonneg_right (above rfl) nonneg))
        | negative => exact absurd (above rfl) ((neg_neg_of_pos (scale_pos pos' f)).trans some).not_ge

/-- What is no number, or not above zero, is no fraction. -/
theorem fraction_eq_zero (below : a.isNaN = true ∨ rank a ≤ rank (.zero .positive)) : fraction q a = 0 := by
  cases a with
  | notANumber => rfl
  | zero s => rfl
  | infinity s =>
    cases s with
    | negative => rfl
    | positive => exact absurd (below.resolve_left nofun) (by decide)
  | finite s m e pos =>
    cases s with
    | negative => rfl
    | positive => exact absurd (kind_le (below.resolve_left nofun)) (by decide)

/-- A magnitude that is not below the reference is all of it. -/
theorem fraction_eq_one {positive : 0 < n} (canonical : IsCanonical binary32 n f) (ca : CanonicalIn binary32 a)
    (number : a.isNaN = false) (above : rank (.finite .positive n f positive) ≤ rank a) :
    fraction (n * 2 ^ f) a = 1 := by
  have pos := scale_pos positive f
  refine le_antisymm (fraction_mem _ _).2 ?_
  have whole : fraction (n * 2 ^ f) (.finite .positive n f positive) = 1 := by
    have one : nearestIn binary32 ((2 : ℚ) ^ (0 : ℤ)) = 2 ^ (0 : ℤ) := nearestIn_two_zpow (by decide)
    show min 1 (nearestIn binary32 _) = 1
    rw [div_self pos.ne', ← zpow_zero (2 : ℚ), one, min_self]
  exact whole.symm.le.trans (fraction_mono pos.le canonical ca number above)

end

/-! ## The point of the unit interval -/

theorem positive_cases (pos : 0 < r) :
    ¬r ≤ 0 ∧ (r.toModel.unpack = .infinity .positive
      ∨ ∃ n f positive, r.toModel.unpack = .finite .positive n f positive) := by
  obtain ⟨-, number, less⟩ := single_lt_iff_rank.1 pos
  have none : r.toModel.unpack.isNaN = false := number
  have less : rank (.zero .positive) < rank r.toModel.unpack := less
  refine ⟨fun le => ?_, ?_⟩
  · have le : rank r.toModel.unpack ≤ rank (.zero .positive) := (single_le_iff_rank.1 le).2.2
    exact le.not_gt less
  · cases parts : r.toModel.unpack with
    | notANumber =>
      rw [parts] at none
      cases none
    | zero s =>
      rw [parts] at less
      exact absurd less (lt_irrefl _)
    | infinity s =>
      cases s with
      | positive => exact .inl rfl
      | negative =>
        rw [parts] at less
        exact absurd less (by decide)
    | finite s n f positive =>
      cases s with
      | positive => exact .inr ⟨n, f, positive, rfl⟩
      | negative =>
        rw [parts] at less
        exact absurd (kind_le less.le) (by decide)

theorem isNaN_single_iff : x.isNaN = true ↔ x.toModel.unpack = .notANumber := by
  show x.toModel.unpack.isNaN = true ↔ _
  cases x.toModel.unpack with
  | notANumber => exact iff_of_true rfl rfl
  | _ => exact iff_of_false nofun nofun

/-- Without a positive reference, every magnitude is at zero. -/
theorem unitOf_of_not_positive (none : r ≤ 0 ∨ r.isNaN = true) : unitOf v r = 0 := by
  have nothing : ((v / r).isNaN || decide (r ≤ 0)) = true := by
    rcases none with le | nan
    · rw [decide_eq_true le, Bool.or_true]
    · have parts : (v / r).toModel.unpack = .notANumber := by
        rw [unpack_div, isNaN_single_iff.1 nan]
        cases v.toModel.unpack <;> exact unpack_pack_notANumber
      rw [isNaN_single_iff.2 parts, Bool.true_or]
  unfold unitOf
  dsimp only
  rw [if_pos nothing]
  rfl

theorem value_unitOf (pos : 0 < r) :
    InUnitInterval (unitOf v r) ∧ value (unitOf v r).toModel.unpack = unitPart (v / r).toModel.unpack := by
  have some : decide (r ≤ 0) = false := decide_eq_false (positive_cases pos).1
  unfold unitOf
  dsimp only
  rw [some, Bool.or_false]
  cases number : (v / r).isNaN with
  | true =>
    rw [if_pos rfl, isNaN_single_iff.1 number, unitPart_notANumber]
    exact ⟨⟨rfl, le_rfl, zero_le_one⟩, rfl⟩
  | false =>
    rw [if_neg Bool.false_ne_true]
    exact value_clampUnit number

/-! ## Channels -/

theorem InUnitInterval.clampUnit_eq (unit : InUnitInterval u) : clampUnit u = u := by
  obtain ⟨finite, low, high⟩ := unit
  have number : u.isNaN = false := by
    cases nan : u.isNaN with
    | false => rfl
    | true =>
      rw [isNaN_single_iff.1 nan] at finite
      cases finite
  refine single_ext ((unpack_clampUnit number).trans ?_)
  rw [cut, if_neg, if_neg]
  · rw [rank_lt_iff_value_lt (canonicalIn_single 1) (canonicalIn_single u) rfl finite, value_one]
    exact high.not_gt
  · rw [rank_lt_iff_value_lt (canonicalIn_single u) (canonicalIn_zero _ _) finite rfl]
    exact low.not_gt

theorem toInt_positive (low high : ℤ) (pos : 0 < m) :
    UnpackedFloat.toInt low high (.finite .positive m e pos) = ⌊(m : ℚ) * 2 ^ e⌋ := by
  have shift : (0 - (e - (e - 0).toNat)).toNat = (-e).toNat := by omega
  show ((dropBits (m <<< (e - 0).toNat) (0 - (e - (e - 0).toNat)).toNat).mantissa : ℤ) = _
  rw [mantissa_dropBits, shift, sub_zero, ← Nat.shiftRight_eq_div_pow, floor_mul_two_zpow]

theorem toNat_ofNatClamp (n : ℕ) : (UInt8.ofNatClamp n).toNat = min 255 n := by
  unfold UInt8.ofNatClamp
  by_cases small : n < UInt8.size
  · rw [dif_pos small]
    exact (min_eq_right (Nat.le_of_lt_succ small)).symm
  · rw [dif_neg small]
    exact (min_eq_left (Nat.le_of_lt (not_lt.1 small))).symm

theorem toUInt8_of_rounds {q : ℚ} (rounds : Rounds binary32 .positive q a) :
    a.toUInt8.toNat = min 255 ⌊nearestIn binary32 q⌋.toNat := by
  unfold UnpackedFloat.toUInt8
  rw [toNat_ofNatClamp]
  rcases rounds with ⟨rfl, none⟩ | ⟨m, e, pos, rfl, -, value⟩
  · rw [none]
    rfl
  · rw [toInt_positive, value]

/-- A channel is the whole part of 255 times its value, as it is computed. -/
theorem channel_toNat (unit : InUnitInterval u) :
    (channel u).toNat = min 255 ⌊nearestIn binary32 (255 * value u.toModel.unpack)⌋.toNat := by
  have scale : (255 : Float32).toModel.unpack = .finite .positive (255 * 2 ^ 16) (-16) (by decide) := rfl
  have canonical := canonicalIn_single u
  unfold channel
  rw [unit.clampUnit_eq]
  show ((255 * u).toModel.unpack.toUInt8).toNat = _
  rw [unpack_mul, scale]
  obtain ⟨finite, low, high⟩ := unit
  cases parts : u.toModel.unpack with
  | notANumber => exact absurd (parts ▸ finite) nofun
  | infinity s => exact absurd (parts ▸ finite) nofun
  | zero s =>
    have product {k : ℕ} (pos : 0 < k) : (UnpackedFloat.finite .positive k (-16) pos).mul binary32 (.zero s)
        = .zero (.positive * s) := rfl
    have packed (t : Sign) : unpack binary32 (pack binary32 (.zero t)) = .zero t := unpack_packedZero t
    rw [product, packed, value_zero, mul_zero, nearestIn_zero]
    rfl
  | finite s m e pos =>
    rw [parts] at low high canonical
    cases s with
    | negative => exact absurd (neg_neg_of_pos (scale_pos pos e)) low.not_gt
    | positive =>
      have rounds := mul_rounds .positive .positive (show 0 < 255 * 2 ^ 16 by decide) pos (e := -16)
        ⟨by decide, by decide, by decide⟩ canonical
      have value : ((255 * 2 ^ 16 : ℕ) : ℚ) * 2 ^ (-16 : ℤ) = 255 := by norm_num
      rw [value] at rounds
      have upto : nearestIn binary32 (255 * (m * 2 ^ e)) ≤ 2 ^ (8 : ℤ) := by
        have power : nearestIn binary32 (2 ^ (8 : ℤ)) = 2 ^ (8 : ℤ) := nearestIn_two_zpow (by decide)
        rw [← power]
        refine nearestIn_mono (mul_nonneg (by norm_num) (scale_pos pos e).le) ?_
        exact (mul_le_mul_of_nonneg_left high (by norm_num)).trans (by norm_num)
      rcases rounds.unpack_pack (by decide) with ⟨-, same⟩ | ⟨large, -⟩
      · rw [same]
        exact toUInt8_of_rounds rounds
      · have room : (2 : ℚ) ^ (8 : ℤ) < 2 ^ (binary32.exponentBias + 1) := by
          rw [← zpow_natCast]
          exact zpow_lt_zpow_right₀ one_lt_two (by decide)
        exact absurd (large.trans upto) room.not_ge

theorem channel_mono (unit : InUnitInterval u) (unit' : InUnitInterval w)
    (le : value u.toModel.unpack ≤ value w.toModel.unpack) : channel u ≤ channel w := by
  rw [UInt8.le_iff_toNat_le, channel_toNat unit, channel_toNat unit']
  refine min_le_min_left _ (Int.toNat_le_toNat (Int.floor_mono (nearestIn_mono ?_ ?_)))
  · exact mul_nonneg (by norm_num) unit.2.1
  · exact mul_le_mul_of_nonneg_left le (by norm_num)

/-! ## Colours -/

namespace Palette

theorem atUnit_minus_zero (p : Palette) : p.atUnit (-0) = p.atUnit 0 := by
  cases p <;> decide +kernel

theorem colour_of_fraction_zero (pos : 0 < r) (none : unitPart (v / r).toModel.unpack = 0) (p : Palette) :
    p.colour r v = p.atUnit 0 := by
  obtain ⟨unit, same⟩ := value_unitOf (v := v) pos
  unfold colour
  rcases unit.eq_zero (same.trans none) with zero | zero
  · rw [zero]
  · rw [zero, atUnit_minus_zero]

theorem colour_of_fraction_one (pos : 0 < r) (all : unitPart (v / r).toModel.unpack = 1) (p : Palette) :
    p.colour r v = p.atUnit 1 := by
  obtain ⟨unit, same⟩ := value_unitOf (v := v) pos
  rw [colour, unit.eq_one (same.trans all)]

/-- What is no number, or not above zero, has the colour of zero. -/
theorem colour_of_le_zero (pos : 0 < r) (below : v ≤ 0 ∨ v.isNaN = true) (p : Palette) :
    p.colour r v = p.atUnit 0 := by
  refine colour_of_fraction_zero pos ?_ p
  rcases (positive_cases pos).2 with infinite | ⟨n, f, positive, finite⟩
  · exact unitPart_div_infinity infinite
  · rw [unitPart_div finite]
    refine fraction_eq_zero ?_
    rcases below with le | nan
    · exact .inr (single_le_iff_rank.1 le).2.2
    · exact .inl nan

/-- What is not below a finite reference has the colour of it. -/
theorem colour_of_ge (pos : 0 < r) (finite : r.isFinite = true) (above : r ≤ v) (p : Palette) :
    p.colour r v = p.atUnit 1 := by
  refine colour_of_fraction_one pos ?_ p
  have finite : r.toModel.unpack.isFinite = true := finite
  have canonical := canonicalIn_single r
  obtain ⟨-, number, le⟩ := single_le_iff_rank.1 above
  rcases (positive_cases pos).2 with infinite | ⟨n, f, positive, parts⟩
  · rw [infinite] at finite
    cases finite
  · rw [parts] at canonical le
    rw [unitPart_div parts]
    exact fraction_eq_one canonical (canonicalIn_single v) number le

theorem colour_of_not_positive (none : r ≤ 0 ∨ r.isNaN = true) (p : Palette) : p.colour r v = p.atUnit 0 := by
  rw [colour, unitOf_of_not_positive none]

theorem red_colour_mono (le : v ≤ w) (r : Float32) : (grayscale.colour r v).red ≤ (grayscale.colour r w).red := by
  show channel (unitOf v r) ≤ channel (unitOf w r)
  by_cases pos : 0 < r
  · obtain ⟨unit, same⟩ := value_unitOf (v := v) pos
    obtain ⟨unit', same'⟩ := value_unitOf (v := w) pos
    refine channel_mono unit unit' ?_
    rw [same, same']
    obtain ⟨-, number, le⟩ := single_le_iff_rank.1 le
    rcases (positive_cases pos).2 with infinite | ⟨n, f, positive, finite⟩
    · rw [unitPart_div_infinity infinite, unitPart_div_infinity infinite]
    · rw [unitPart_div finite, unitPart_div finite]
      exact fraction_mono (scale_pos positive f).le (canonicalIn_single v) (canonicalIn_single w) number le
  · have none : r ≤ 0 ∨ r.isNaN = true := by
      cases number : r.isNaN with
      | true => exact .inr rfl
      | false =>
        refine .inl (single_le_iff_rank.2 ⟨number, rfl, not_lt.1 fun less => ?_⟩)
        exact pos (single_lt_iff_rank.2 ⟨rfl, number, less⟩)
    rw [unitOf_of_not_positive none, unitOf_of_not_positive none]
    exact UInt8.le_refl _

end Palette

/-- **A palette has two end colours.** Under a positive finite reference, what is no number or not above zero has the
first one, and what is not below the reference has the last one, whatever the reference is. Without a positive reference
everything has the first one. In shades of grey, a larger magnitude is no darker. -/
theorem palette_ends (p : Palette) (r v : Float32) :
    (0 < r → r.isFinite = true →
        (v ≤ 0 ∨ v.isNaN = true → p.colour r v = p.colour r 0) ∧ (r ≤ v → p.colour r v = p.colour r r)
          ∧ p.colour r 0 = p.colour 1 0 ∧ p.colour r r = p.colour 1 1)
      ∧ (r ≤ 0 ∨ r.isNaN = true → p.colour r v = p.colour 1 0)
      ∧ (Palette.grayscale.colour r v).red = (Palette.grayscale.colour r v).green
      ∧ (Palette.grayscale.colour r v).green = (Palette.grayscale.colour r v).blue
      ∧ ∀ w, v ≤ w → (Palette.grayscale.colour r v).red ≤ (Palette.grayscale.colour r w).red := by
  have one : (0 : Float32) < 1 := by decide +kernel
  have first : p.colour 1 0 = p.atUnit 0 := Palette.colour_of_le_zero one (.inl (by decide +kernel)) p
  have last : p.colour 1 1 = p.atUnit 1 := Palette.colour_of_ge one rfl (by decide +kernel) p
  rw [first, last]
  refine ⟨fun pos finite => ?_, fun none => Palette.colour_of_not_positive none p, rfl, rfl,
    fun w le => Palette.red_colour_mono le r⟩
  have start : p.colour r 0 = p.atUnit 0 := Palette.colour_of_le_zero pos (.inl (by decide +kernel)) p
  have itself : r ≤ r := single_le_iff_rank.2 ⟨(single_lt_iff_rank.1 pos).2.1, (single_lt_iff_rank.1 pos).2.1, le_rfl⟩
  have stop : p.colour r r = p.atUnit 1 := Palette.colour_of_ge pos finite itself p
  rw [start, stop]
  exact ⟨fun below => Palette.colour_of_le_zero pos below p, fun above => Palette.colour_of_ge pos finite above p,
    rfl, rfl⟩

/-- Under a reference of 3: a magnitude below zero, one above the reference, and two shades of grey between. -/
theorem palette_ends_three :
    Palette.viridis.colour 3 (-2) = Palette.viridis.colour 3 0
      ∧ Palette.viridis.colour 3 (1 / 0) = Palette.viridis.colour 3 3
      ∧ Palette.viridis.colour (-3) 2 = Palette.viridis.colour 1 0
      ∧ (Palette.grayscale.colour 3 1).red ≤ (Palette.grayscale.colour 3 2).red := by
  have pos : (0 : Float32) < 3 := by decide +kernel
  exact ⟨((palette_ends .viridis 3 (-2)).1 pos rfl).1 (.inl (by decide +kernel)),
    ((palette_ends .viridis 3 (1 / 0)).1 pos rfl).2.1 (by decide +kernel),
    (palette_ends .viridis (-3) 2).2.1 (.inl (by decide +kernel)),
    (palette_ends .grayscale 3 1).2.2.2.2 2 (by decide +kernel)⟩

end Panadapter
