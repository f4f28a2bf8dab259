import Panadapter.Decimal.Binary
import Panadapter.Proofs.Decimal.Rounding

/-!
# Packing

A number is packed into a bit pattern of its format, and unpacked from it. The parts that it is unpacked into are
canonical.

* What is unpacked is canonical (`canonicalIn_unpack`).
* A canonical number that its format has room for is unpacked as it was packed (`unpack_pack_finite`).
* A bit pattern is packed as it was unpacked (`pack_unpack`), so a number is told by its parts (`double_ext`,
  `single_ext`).
* A bit pattern is read as it is unpacked (`exists_read_eq`).
-/

namespace Panadapter.Decimal

open Float.Model (UnpackedFloat)
open Float.Model.UnpackedFloat (Sign pack packComponents packedInfinity packedZero unpack unpackExponent
  unpackExponent_packComponents unpackMantissa unpackMantissa_packComponents unpackSign)

variable {spec : Float.Model.Format} {m : ℕ} {e : ℤ}

/-! ## Fields -/

theorem toNat_unpackMantissa (b : BitVec spec.numBits) :
    (unpackMantissa b).toNat = b.toNat % 2 ^ spec.mantissaBitsWithoutImplicit := by
  simp [unpackMantissa, Nat.sub_add_cancel spec.hm]

theorem toNat_unpackExponent (b : BitVec spec.numBits) :
    (unpackExponent b).toNat = b.toNat >>> spec.mantissaBitsWithoutImplicit % 2 ^ spec.exponentBits := by
  have width : spec.mantissaBitsWithoutImplicit + spec.exponentBits - 1 - spec.mantissaBitsWithoutImplicit + 1
      = spec.exponentBits := by
    have := spec.he
    omega
  simp [unpackExponent, width]

theorem unpackSign_eq (b : BitVec spec.numBits) :
    unpackSign b = (b.extractLsb (spec.mantissaBitsWithoutImplicit + spec.exponentBits)
      (spec.mantissaBitsWithoutImplicit + spec.exponentBits)).cast (by omega) := rfl

theorem toNat_unpackSign (b : BitVec spec.numBits) :
    (unpackSign b).toNat = b.toNat >>> (spec.mantissaBitsWithoutImplicit + spec.exponentBits) % 2 := by
  simp [unpackSign_eq]

theorem unpackSign_packComponents {sign : Sign} {exponent : BitVec spec.exponentBits}
    {mantissa : BitVec spec.mantissaBitsWithoutImplicit} :
    unpackSign (packComponents spec sign exponent mantissa) = sign.toBitVec := by
  ext i hi
  have behind : ¬spec.mantissaBitsWithoutImplicit + spec.exponentBits + i < spec.mantissaBitsWithoutImplicit := by
    omega
  have beyond : spec.mantissaBitsWithoutImplicit + spec.exponentBits + i - spec.mantissaBitsWithoutImplicit
      = spec.exponentBits + i := by
    omega
  simp [unpackSign_eq, packComponents, BitVec.getLsbD_append, BitVec.getLsbD_eq_getElem hi, behind, beyond]

theorem ofBitVec_toBitVec (sign : Sign) : Sign.ofBitVec sign.toBitVec = sign := by
  cases sign <;> rfl

theorem toBitVec_ofBitVec (bit : BitVec 1) : (Sign.ofBitVec bit).toBitVec = bit := by
  rcases BitVec.eq_zero_or_eq_one bit with rfl | rfl <;> rfl

/-- The fields are all there is of a bit pattern. -/
theorem eq_of_fields {b c : BitVec spec.numBits} (mantissa : unpackMantissa b = unpackMantissa c)
    (exponent : unpackExponent b = unpackExponent c) (sign : unpackSign b = unpackSign c) : b = c := by
  have parts (b : BitVec spec.numBits) : b.toNat = (unpackMantissa b).toNat + 2 ^ spec.mantissaBitsWithoutImplicit
      * ((unpackExponent b).toNat + 2 ^ spec.exponentBits * (unpackSign b).toNat) := by
    have width : 2 ^ spec.numBits
        = 2 ^ spec.mantissaBitsWithoutImplicit * (2 ^ spec.exponentBits * 2) := by
      rw [← Nat.pow_succ, ← Nat.pow_add]
      exact congrArg _ (by simp only [Float.Model.Format.numBits]; omega)
    rw [toNat_unpackMantissa, toNat_unpackExponent, toNat_unpackSign, Nat.shiftRight_eq_div_pow,
      Nat.shiftRight_eq_div_pow, Nat.pow_add, ← Nat.div_div_eq_div_mul, ← Nat.mod_mul, ← Nat.mod_mul, ← width,
      Nat.mod_eq_of_lt b.isLt]
  exact BitVec.eq_of_toNat_eq (by rw [parts b, parts c, mantissa, exponent, sign])

theorem toNat_append_one {n : ℕ} (mantissa : BitVec n) : (1#1 ++ mantissa).toNat = 2 ^ n + mantissa.toNat := by
  rw [BitVec.toNat_append, Nat.shiftLeft_eq, Nat.mul_comm, ← Nat.two_pow_add_eq_or_of_lt mantissa.isLt]
  exact congrArg (· + _) (Nat.mul_one _)

theorem eq_zero_iff_toNat {n : ℕ} (x : BitVec n) : x = 0#_ ↔ x.toNat = 0 := by
  rw [← BitVec.toNat_inj, BitVec.toNat_zero]

theorem eq_neg_one_iff_toNat {n : ℕ} (x : BitVec n) : x = -1#_ ↔ x.toNat + 1 = 2 ^ n := by
  have pos := Nat.two_pow_pos n
  rw [← BitVec.toNat_inj, BitVec.neg_one_eq_allOnes, BitVec.toNat_allOnes]
  omega

/-! ## Unpacked numbers -/

/-- Whether a number is canonical, if it has a mantissa. -/
def CanonicalIn (spec : Float.Model.Format) : UnpackedFloat → Prop
  | .finite _ m e _ => IsCanonical spec m e
  | _ => True

theorem mantissaBits_eq (spec : Float.Model.Format) :
    spec.mantissaBits = 1 + spec.mantissaBitsWithoutImplicit := rfl

theorem minExponent_eq (spec : Float.Model.Format) :
    spec.minExponent = 1 - (spec.exponentBias + spec.mantissaBitsWithoutImplicit : ℕ) := by
  have pos := Nat.two_pow_pos (spec.exponentBits - 1)
  simp only [Float.Model.Format.minExponent, mantissaBits_eq, Float.Model.Format.exponentBias]
  push_cast [Nat.cast_sub pos]
  ring

/-- What is unpacked is canonical. -/
theorem canonicalIn_unpack (spec : Float.Model.Format) (b : BitVec spec.numBits) :
    CanonicalIn spec (unpack spec b) := by
  have low := minExponent_eq spec
  have small := (unpackMantissa b).isLt
  have bits := mantissaBits_eq spec
  unfold unpack
  dsimp only
  by_cases last : unpackExponent b = -1#_
  · rw [if_pos last]
    by_cases none : unpackMantissa b = 0#_
    · rw [if_pos none]
      trivial
    · rw [if_neg none]
      trivial
  · rw [if_neg last]
    by_cases first : unpackExponent b = 0#_
    · rw [if_pos first]
      have field := (eq_zero_iff_toNat _).1 first
      by_cases none : unpackMantissa b = 0#_
      · rw [dif_pos none]
        trivial
      · rw [dif_neg none]
        refine ⟨small.trans_le (Nat.pow_le_pow_right two_pos (by omega)), by omega, fun above => ?_⟩
        exact absurd above (by omega)
    · rw [if_neg first]
      have field := mt (eq_zero_iff_toNat _).2 first
      refine ⟨?_, by omega, fun _ => ?_⟩
      · rw [toNat_append_one, bits, Nat.pow_add]
        omega
      · rw [toNat_append_one, bits, Nat.add_sub_cancel_left]
        exact Nat.le_add_right _ _

/-! ## Packing and unpacking -/

theorem exponentRange_eq (spec : Float.Model.Format) : 2 ^ spec.exponentBits = 2 * (spec.exponentBias + 1) := by
  have pos := Nat.two_pow_pos (spec.exponentBits - 1)
  have bits : spec.exponentBits = spec.exponentBits - 1 + 1 := (Nat.sub_add_cancel spec.he).symm
  rw [Float.Model.Format.exponentBias, Nat.sub_add_cancel pos]
  conv_lhs => rw [bits, Nat.pow_succ, Nat.mul_comm]

/-- A number that is not too large has an exponent that its field has room for. -/
theorem IsCanonical.exponent_lt (c : IsCanonical spec m e) (two : 2 ≤ spec.exponentBits)
    (small : (m : ℚ) * 2 ^ e < 2 ^ (spec.exponentBias + 1)) :
    e + spec.exponentBias + spec.mantissaBitsWithoutImplicit + 1 < (2 ^ spec.exponentBits : ℕ) := by
  have least := minExponent_eq spec
  have range := exponentRange_eq spec
  by_cases above : spec.minExponent < e
  · have leading : (2 : ℚ) ^ (spec.mantissaBitsWithoutImplicit + e) ≤ m * 2 ^ e := by
      have full := c.full above
      rw [mantissaBits_eq, Nat.add_sub_cancel_left] at full
      rw [← pow_scale]
      exact scale_mono full e
    have lt : (spec.mantissaBitsWithoutImplicit + e : ℤ) < (spec.exponentBias + 1 : ℕ) := by
      refine (zpow_lt_zpow_iff_right₀ one_lt_two).1 (leading.trans_lt ?_)
      rwa [zpow_natCast]
    omega
  · have := c.low
    have four : 2 ^ 2 ≤ 2 ^ spec.exponentBits := Nat.pow_le_pow_right two_pos two
    omega

theorem unpack_packComponents_zero {s : Sign} {mantissa : BitVec spec.mantissaBitsWithoutImplicit}
    (pos : 0 < mantissa.toNat) :
    unpack spec (packComponents spec s 0#_ mantissa) = .finite s mantissa.toNat spec.minExponent pos := by
  have inside : (0#_ : BitVec spec.exponentBits) ≠ -1#_ := by simpa using Nat.ne_of_gt spec.he
  have some : mantissa ≠ 0#_ := by
    rintro rfl
    exact absurd pos (by simp)
  have fraction : unpackMantissa (packComponents spec s 0#_ mantissa) = mantissa := unpackMantissa_packComponents
  have exponent : unpackExponent (packComponents spec s 0#_ mantissa) = 0#_ := unpackExponent_packComponents
  unfold unpack
  dsimp only
  rw [if_neg (exponent.trans_ne inside), if_pos exponent, dif_neg (fraction.trans_ne some), unpackSign_packComponents,
    ofBitVec_toBitVec]
  refine finite_congr (congrArg BitVec.toNat fraction) ?_
  rw [exponent, minExponent_eq, BitVec.toNat_zero]
  push_cast
  ring

theorem unpack_packComponents {s : Sign} {exponent : BitVec spec.exponentBits}
    {mantissa : BitVec spec.mantissaBitsWithoutImplicit} (inside : exponent ≠ -1#_) (some : exponent ≠ 0#_) :
    unpack spec (packComponents spec s exponent mantissa)
      = .finite s (2 ^ spec.mantissaBitsWithoutImplicit + mantissa.toNat)
        (exponent.toNat - (spec.exponentBias + spec.mantissaBitsWithoutImplicit))
        (Nat.add_pos_left (Nat.two_pow_pos _) _) := by
  have fraction : unpackMantissa (packComponents spec s exponent mantissa) = mantissa := unpackMantissa_packComponents
  have same : unpackExponent (packComponents spec s exponent mantissa) = exponent := unpackExponent_packComponents
  unfold unpack
  dsimp only
  rw [if_neg (same.trans_ne inside), if_neg (same.trans_ne some), unpackSign_packComponents,
    ofBitVec_toBitVec]
  refine finite_congr ?_ (by rw [same])
  rw [fraction, toNat_append_one]

/-- A number is packed with its leading bit left out, if it has all bits of a mantissa. -/
theorem pack_finite (spec : Float.Model.Format) (s : Sign) (m : ℕ) (e : ℤ) (pos : 0 < m) :
    pack spec (.finite s m e pos) =
      if 2 ^ spec.exponentBits ≤ (e + spec.exponentBias + spec.mantissaBitsWithoutImplicit).toNat + 1 then
        packedInfinity spec s
      else if m.log2 + 1 = spec.mantissaBits then
        packComponents spec s (.ofNat _ (e + spec.exponentBias + spec.mantissaBitsWithoutImplicit).toNat) (.ofNat _ m)
      else packComponents spec s 0#_ (.ofNat _ m) := rfl

/-- A canonical number that is not too large for its format is packed and unpacked. -/
theorem unpack_pack_finite (two : 2 ≤ spec.exponentBits) {s : Sign} (pos : 0 < m) (c : IsCanonical spec m e)
    (small : (m : ℚ) * 2 ^ e < 2 ^ (spec.exponentBias + 1)) :
    unpack spec (pack spec (.finite s m e pos)) = .finite s m e pos := by
  have room := c.exponent_lt two small
  have low := c.low
  have least := minExponent_eq spec
  have bits := mantissaBits_eq spec
  have short := c.short
  rw [bits, Nat.pow_add, Nat.pow_one] at short
  rw [pack_finite, if_neg (by omega)]
  by_cases full : 2 ^ spec.mantissaBitsWithoutImplicit ≤ m
  · have log : m.log2 = spec.mantissaBitsWithoutImplicit :=
      (Nat.log2_eq_iff pos.ne').2 ⟨full, by rw [Nat.pow_succ]; omega⟩
    have exponent : (BitVec.ofNat spec.exponentBits
        (e + spec.exponentBias + spec.mantissaBitsWithoutImplicit).toNat).toNat
          = (e + spec.exponentBias + spec.mantissaBitsWithoutImplicit).toNat := by
      rw [BitVec.toNat_ofNat, Nat.mod_eq_of_lt (by omega)]
    have mantissa : (BitVec.ofNat spec.mantissaBitsWithoutImplicit m).toNat
        = m - 2 ^ spec.mantissaBitsWithoutImplicit := by
      rw [BitVec.toNat_ofNat, Nat.mod_eq_sub_mod full, Nat.mod_eq_of_lt (by omega)]
    have not_last := mt (eq_neg_one_iff_toNat _).1 (by rw [exponent]; omega)
    have not_first := mt (eq_zero_iff_toNat _).1 (by rw [exponent]; omega)
    rw [if_pos (by omega), unpack_packComponents not_last not_first]
    exact finite_congr (by omega) (by omega)
  · have log : m.log2 < spec.mantissaBitsWithoutImplicit := (Nat.log2_lt pos.ne').2 (by omega)
    have mantissa : (BitVec.ofNat spec.mantissaBitsWithoutImplicit m).toNat = m := by
      rw [BitVec.toNat_ofNat, Nat.mod_eq_of_lt (by omega)]
    have last : e = spec.minExponent := by
      by_contra above
      have := c.full (by omega)
      rw [bits, Nat.add_sub_cancel_left] at this
      omega
    rw [if_neg (by omega), unpack_packComponents_zero (by omega)]
    exact finite_congr mantissa last.symm

theorem unpack_packedInfinity (s : Sign) : unpack spec (packedInfinity spec s) = .infinity s := by
  have fraction : unpackMantissa (packedInfinity spec s) = 0#_ := unpackMantissa_packComponents
  have exponent : unpackExponent (packedInfinity spec s) = -1#_ := unpackExponent_packComponents
  unfold unpack
  dsimp only
  rw [if_pos exponent, if_pos fraction, packedInfinity, unpackSign_packComponents, ofBitVec_toBitVec]

theorem unpack_packedZero (s : Sign) : unpack spec (packedZero spec s) = .zero s := by
  have fraction : unpackMantissa (packedZero spec s) = 0#_ := unpackMantissa_packComponents
  have exponent : unpackExponent (packedZero spec s) = 0#_ := unpackExponent_packComponents
  have inside : (0#_ : BitVec spec.exponentBits) ≠ -1#_ := by simpa using Nat.ne_of_gt spec.he
  unfold unpack
  dsimp only
  rw [if_neg (exponent.trans_ne inside), if_pos exponent, dif_pos fraction, packedZero, unpackSign_packComponents,
    ofBitVec_toBitVec]

/-- A canonical number that is too large for its format is packed as an infinity. -/
theorem unpack_pack_infinite {s : Sign} (pos : 0 < m) (c : IsCanonical spec m e)
    (large : 2 ^ (spec.exponentBias + 1) ≤ (m : ℚ) * 2 ^ e) :
    unpack spec (pack spec (.finite s m e pos)) = .infinity s := by
  have range := exponentRange_eq spec
  have bits := mantissaBits_eq spec
  have lt : (spec.exponentBias + 1 : ℕ) < (spec.mantissaBits + e : ℤ) := by
    refine (zpow_lt_zpow_iff_right₀ (one_lt_two (α := ℚ))).1 ?_
    calc (2 : ℚ) ^ ((spec.exponentBias + 1 : ℕ) : ℤ)
      _ ≤ m * 2 ^ e := by
        rw [zpow_natCast]
        exact large
      _ < (2 ^ spec.mantissaBits : ℕ) * 2 ^ e := by
        rw [mul_lt_mul_iff_left₀ (two_zpow_pos e)]
        exact_mod_cast c.short
      _ = 2 ^ (spec.mantissaBits + e) := pow_scale _ e
  rw [pack_finite, if_pos (by omega), unpack_packedInfinity]

/-- A bit pattern is packed from what is unpacked from it. -/
theorem pack_unpack (two : 2 ≤ spec.exponentBits) {b : BitVec spec.numBits} (valid : spec.Valid b) :
    pack spec (unpack spec b) = b := by
  have same {exponent : BitVec spec.exponentBits} {mantissa : BitVec spec.mantissaBitsWithoutImplicit}
      (fraction : mantissa = unpackMantissa b) (field : exponent = unpackExponent b) :
      packComponents spec (Sign.ofBitVec (unpackSign b)) exponent mantissa = b :=
    eq_of_fields (unpackMantissa_packComponents.trans fraction) (unpackExponent_packComponents.trans field)
      (unpackSign_packComponents.trans (toBitVec_ofBitVec _))
  have bits := mantissaBits_eq spec
  have small := (unpackMantissa b).isLt
  unfold unpack
  dsimp only
  by_cases last : unpackExponent b = -1#_
  · rw [if_pos last]
    by_cases none : unpackMantissa b = 0#_
    · rw [if_pos none]
      exact same none.symm last.symm
    · rw [if_neg none]
      exact (valid.eq_packedNaN last none).symm
  · rw [if_neg last]
    by_cases first : unpackExponent b = 0#_
    · rw [if_pos first]
      by_cases none : unpackMantissa b = 0#_
      · rw [dif_pos none]
        exact same none.symm first.symm
      · rw [dif_neg none]
        have field := (eq_zero_iff_toNat _).1 first
        have four : 2 ^ 2 ≤ 2 ^ spec.exponentBits := Nat.pow_le_pow_right two_pos two
        have log : (unpackMantissa b).toNat.log2 < spec.mantissaBitsWithoutImplicit :=
          (Nat.log2_lt (mt (eq_zero_iff_toNat _).2 none)).2 small
        rw [pack_finite, if_neg (by omega), if_neg (by omega)]
        exact same (by rw [BitVec.ofNat_toNat, BitVec.setWidth_eq]) first.symm
    · rw [if_neg first]
      have field := mt (eq_neg_one_iff_toNat _).2 last
      have room := (unpackExponent b).isLt
      have log : (1#1 ++ unpackMantissa b).toNat.log2 = spec.mantissaBitsWithoutImplicit := by
        rw [toNat_append_one, Nat.log2_eq_iff (by omega), Nat.pow_succ]
        omega
      have exponent : ((unpackExponent b).toNat - (spec.exponentBias + spec.mantissaBitsWithoutImplicit)
          + spec.exponentBias + spec.mantissaBitsWithoutImplicit : ℤ).toNat = (unpackExponent b).toNat := by
        omega
      rw [pack_finite, exponent, if_neg (by omega), if_pos (by omega), toNat_append_one]
      refine same (BitVec.eq_of_toNat_eq ?_) (by rw [BitVec.ofNat_toNat, BitVec.setWidth_eq])
      rw [BitVec.toNat_ofNat, Nat.add_mod_left, Nat.mod_eq_of_lt small]

/-- Bits are told by what they are unpacked into. -/
theorem eq_of_unpack (two : 2 ≤ spec.exponentBits) {b c : BitVec spec.numBits} (valid : spec.Valid b)
    (valid' : spec.Valid c) (same : unpack spec b = unpack spec c) : b = c := by
  rw [← pack_unpack two valid, same, pack_unpack two valid']

/-- A double is told by what it is unpacked into. -/
theorem double_ext {x y : Float} (same : x.toModel.unpack = y.toModel.unpack) : x = y := by
  cases x with
  | ofModel a =>
    cases y with
    | ofModel b =>
      cases a with
      | mk p vp =>
        cases b with
        | mk q vq =>
          have bits : p.toBitVec = q.toBitVec := eq_of_unpack (by decide) vp vq same
          cases UInt64.toBitVec_inj.1 bits
          rfl

/-- A single is told by what it is unpacked into. -/
theorem single_ext {x y : Float32} (same : x.toModel.unpack = y.toModel.unpack) : x = y := by
  cases x with
  | ofModel a =>
    cases y with
    | ofModel b =>
      cases a with
      | mk p vp =>
        cases b with
        | mk q vq =>
          have bits : p.toBitVec = q.toBitVec := eq_of_unpack (by decide) vp vq same
          cases UInt32.toBitVec_inj.1 bits
          rfl

/-! ## Readings -/

/-- The reading of a number in parts. They do not tell the neighbour towards zero, nor the exponent of zero. -/
def readingOf (narrow : Bool) (leastExponent : ℤ) : UnpackedFloat → Reading
  | .notANumber => .nan
  | .infinity s => .infinite (s == .negative)
  | .zero s => .finite (s == .negative) 0 leastExponent false
  | .finite s m e _ => .finite (s == .negative) m e narrow

theorem readingOf_zero (narrow : Bool) (leastExponent : ℤ) (s : Sign) :
    readingOf narrow leastExponent (.zero s) = .finite (s == .negative) 0 leastExponent false := rfl

theorem readingOf_finite (narrow : Bool) (leastExponent : ℤ) (s : Sign) (pos : 0 < m) :
    readingOf narrow leastExponent (.finite s m e pos) = .finite (s == .negative) m e narrow := rfl

theorem signBit_eq (b : BitVec spec.numBits) :
    (b.toNat >>> (spec.mantissaBitsWithoutImplicit + spec.exponentBits) % 2 == 1)
      = (Sign.ofBitVec (unpackSign b) == .negative) := by
  rw [← toNat_unpackSign]
  rcases BitVec.eq_zero_or_eq_one (unpackSign b) with zero | one
  · rw [zero]
    rfl
  · rw [one]
    rfl

theorem lastPlace_eq (spec : Float.Model.Format) (field : ℕ) :
    Format.lastPlace ⟨spec.exponentBits, spec.mantissaBitsWithoutImplicit⟩ field
      = max field 1 - (spec.exponentBias + spec.mantissaBitsWithoutImplicit) := by
  have pos := Nat.two_pow_pos (spec.exponentBits - 1)
  simp only [Format.lastPlace, Format.bias, Float.Model.Format.exponentBias, Nat.one_shiftLeft]
  push_cast [Nat.cast_sub pos]
  ring

/-- A bit pattern is read as it is unpacked. -/
theorem exists_read_eq (spec : Float.Model.Format) (b : BitVec spec.numBits) : ∃ narrow,
    Format.read ⟨spec.exponentBits, spec.mantissaBitsWithoutImplicit⟩ b.toNat
      = readingOf narrow spec.minExponent (unpack spec b) := by
  unfold Format.read
  simp only [Nat.one_shiftLeft, ← toNat_unpackMantissa, ← toNat_unpackExponent, signBit_eq]
  unfold unpack
  dsimp only
  by_cases last : (unpackExponent b).toNat + 1 = 2 ^ spec.exponentBits
  · rw [if_pos last, if_pos ((eq_neg_one_iff_toNat _).2 last)]
    by_cases none : (unpackMantissa b).toNat = 0
    · rw [if_pos none, if_pos ((eq_zero_iff_toNat _).2 none)]
      exact ⟨false, rfl⟩
    · rw [if_neg none, if_neg (mt (eq_zero_iff_toNat _).1 none)]
      exact ⟨false, rfl⟩
  · rw [if_neg last, if_neg (mt (eq_neg_one_iff_toNat _).1 last)]
    by_cases first : (unpackExponent b).toNat = 0
    · rw [if_pos first, if_pos ((eq_zero_iff_toNat _).2 first)]
      by_cases none : (unpackMantissa b).toNat = 0
      · rw [dif_pos ((eq_zero_iff_toNat _).2 none), none]
        refine ⟨false, ?_⟩
        rw [lastPlace_eq, readingOf_zero, minExponent_eq, first]
        rfl
      · rw [dif_neg (mt (eq_zero_iff_toNat _).1 none)]
        refine ⟨false, ?_⟩
        rw [lastPlace_eq, readingOf_finite, first]
        congr 1
        omega
    · rw [if_neg first, if_neg (mt (eq_zero_iff_toNat _).1 first), ← toNat_append_one]
      refine ⟨(unpackMantissa b).toNat == 0 && (unpackExponent b).toNat != 1, ?_⟩
      rw [lastPlace_eq, readingOf_finite, max_eq_left (by omega)]

end Panadapter.Decimal
