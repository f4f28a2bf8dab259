import Mathlib.Data.Rat.Floor
import Panadapter.Transport.Capture

/-!
# Words out of bytes

The words of a capture are stored one after the other with their lowest byte first; `SampleFormat.Decodes` says for each
format which number a word is. The cut of the bytes into pieces is of no account as long as it goes between words.

* Decoding gives the whole words, in order (`SampleFormat.decodes_decode`).
* Pieces of whole words are decoded on their own (`SampleFormat.decode_append`).
* Words stored and decoded are the same words (`SampleFormat.decode_image`).
-/

namespace Panadapter

/-! ## Whole parts -/

namespace Decimal

/-- The whole part of a number, towards zero. -/
def wholePart (x : ℚ) : ℤ := if x < 0 then ⌈x⌉ else ⌊x⌋

/-- Whether a whole number is what is left of a reading between two bounds: nothing of what is no number, and the whole
part of every other one, cut to the bounds. -/
def Reading.CutsTo (low high : ℤ) : Reading → ℤ → Prop
  | nan, n => n = 0
  | infinite negative, n => n = if negative then low else high
  | finite negative m e _, n => n = max low (min high (wholePart ((if negative then -1 else 1) * (m * 2 ^ e))))

theorem mul_two_zpow_eq_div (m : ℕ) (e : ℤ) :
    (m : ℚ) * 2 ^ e = ((m * 2 ^ e.toNat : ℕ) : ℚ) / ((2 ^ (-e).toNat : ℕ) : ℚ) := by
  obtain ⟨n, rfl | rfl⟩ := e.eq_nat_or_neg
  · simp
  · simp [div_eq_mul_inv]

theorem floor_mul_two_zpow (m : ℕ) (e : ℤ) : ⌊(m : ℚ) * 2 ^ e⌋ = ((m <<< e.toNat >>> (-e).toNat : ℕ) : ℤ) := by
  rw [mul_two_zpow_eq_div, ← Int.cast_natCast (m * 2 ^ e.toNat), Rat.floor_intCast_div_natCast, ← Int.natCast_div,
    Nat.shiftRight_eq_div_pow, Nat.shiftLeft_eq]

theorem Reading.cutsTo_truncate (low high : ℤ) (r : Reading) : r.CutsTo low high (r.truncate low high) := by
  cases r with
  | nan => rfl
  | infinite negative => rfl
  | finite negative m e narrow =>
    have nonneg : (0 : ℚ) ≤ m * 2 ^ e := mul_nonneg (Nat.cast_nonneg m) (zpow_nonneg (by norm_num) e)
    have floor := floor_mul_two_zpow m e
    cases negative with
    | false =>
      have whole : wholePart (1 * (m * 2 ^ e)) = ((m <<< e.toNat >>> (-e).toNat : ℕ) : ℤ) := by
        rw [one_mul, wholePart, if_neg (not_lt.2 nonneg), floor]
      simp only [CutsTo, truncate, Bool.false_eq_true, ↓reduceIte, whole]
    | true =>
      have whole : wholePart (-1 * (m * 2 ^ e)) = -((m <<< e.toNat >>> (-e).toNat : ℕ) : ℤ) := by
        rw [neg_one_mul, wholePart]
        split
        · rw [Int.ceil_neg, floor]
        · rename_i zero
          have : (m : ℚ) * 2 ^ e = 0 := by linarith
          rw [this] at floor ⊢
          rw [← floor]
          simp
      simp only [CutsTo, truncate, ↓reduceIte, whole]

theorem Reading.truncate_within {low high : ℤ} (neg : low ≤ 0) (nonneg : 0 ≤ high) (r : Reading) :
    low ≤ r.truncate low high ∧ r.truncate low high ≤ high := by
  cases r with
  | nan => exact ⟨neg, nonneg⟩
  | infinite negative =>
    cases negative with
    | true =>
      show low ≤ low ∧ low ≤ high
      omega
    | false =>
      show low ≤ high ∧ high ≤ high
      omega
  | finite negative m e narrow =>
    simp only [truncate]
    omega

end Decimal

namespace SampleFormat

open Decimal (Reading)

/-! ## Bytes of a word -/

/-- The number of bytes, the lowest one first. -/
def lowestFirst : List UInt8 → ℕ
  | [] => 0
  | b :: rest => b.toNat + 256 * lowestFirst rest

/-- Which word the bytes of a word are. A signed byte counts 256 times; a floating-point number is scaled by 32767, and
its whole part is cut to the range of words. -/
def IsWord (f : SampleFormat) (bytes : List UInt8) (word : Int16) : Prop :=
  match f with
  | ci8 => word.toInt = Int.bmod (lowestFirst bytes) (2 ^ 8) * 256
  | ci16 => word.toInt = Int.bmod (lowestFirst bytes) (2 ^ 16)
  | cf32 =>
    (Reading.ofFloat32 (Float32.ofBits (UInt32.ofNat (lowestFirst bytes)) * 32767)).CutsTo (-32768) 32767 word.toInt

/-- Words that are the whole words of bytes, in order. -/
structure Decodes (f : SampleFormat) (bytes : List UInt8) (words : List Int16) : Prop where
  length : words.length = bytes.length / f.wordBytes
  isWord : ∀ k (h : k < words.length), f.IsWord ((bytes.drop (k * f.wordBytes)).take f.wordBytes) words[k]

theorem or_mul_two_pow {low i : ℕ} (h : low < 2 ^ i) (high : ℕ) : low ||| high * 2 ^ i = low + high * 2 ^ i := by
  rw [Nat.or_comm, ← Nat.shiftLeft_eq, ← Nat.shiftLeft_add_eq_or_of_lt h, Nat.add_comm]

theorem toNat_pair (a b : UInt8) : (a.toUInt16 ||| b.toUInt16 <<< 8).toNat = lowestFirst [a, b] := by
  have := a.toNat_lt
  have := b.toNat_lt
  have shift : (8 : UInt16).toNat % 16 = 8 := rfl
  simp only [UInt16.toNat_or, UInt16.toNat_shiftLeft, UInt8.toNat_toUInt16, shift, Nat.shiftLeft_eq]
  rw [Nat.mod_eq_of_lt (by omega), or_mul_two_pow (by omega)]
  simp only [lowestFirst]
  omega

theorem toNat_quadruple (a b c d : UInt8) :
    (a.toUInt32 ||| b.toUInt32 <<< 8 ||| c.toUInt32 <<< 16 ||| d.toUInt32 <<< 24).toNat = lowestFirst [a, b, c, d] := by
  have := a.toNat_lt
  have := b.toNat_lt
  have := c.toNat_lt
  have := d.toNat_lt
  have shift8 : (8 : UInt32).toNat % 32 = 8 := rfl
  have shift16 : (16 : UInt32).toNat % 32 = 16 := rfl
  have shift24 : (24 : UInt32).toNat % 32 = 24 := rfl
  simp only [UInt32.toNat_or, UInt32.toNat_shiftLeft, UInt8.toNat_toUInt32, shift8, shift16, shift24, Nat.shiftLeft_eq]
  have second : a.toNat ||| b.toNat * 2 ^ 8 = a.toNat + b.toNat * 2 ^ 8 := or_mul_two_pow (by omega) _
  have third : a.toNat + b.toNat * 2 ^ 8 ||| c.toNat * 2 ^ 16 = a.toNat + b.toNat * 2 ^ 8 + c.toNat * 2 ^ 16 :=
    or_mul_two_pow (by omega) _
  rw [Nat.mod_eq_of_lt (by omega), Nat.mod_eq_of_lt (by omega), Nat.mod_eq_of_lt (by omega), second, third,
    or_mul_two_pow (by omega)]
  simp only [lowestFirst]
  omega

theorem toInt_toInt16 (x : UInt16) : x.toInt16.toInt = Int.bmod x.toNat (2 ^ 16) := by
  rw [← UInt16.toNat_toBitVec, ← BitVec.toInt_eq_toNat_bmod]
  rfl

theorem isWord_wordOfByte (b : UInt8) : ci8.IsWord [b] (wordOfByte b) := by
  have := b.toNat_lt
  have shift : (8 : UInt16).toNat % 16 = 8 := rfl
  show (b.toUInt16 <<< 8).toInt16.toInt = Int.bmod (lowestFirst [b] : ℕ) (2 ^ 8) * 256
  rw [toInt_toInt16, UInt16.toNat_shiftLeft, shift, UInt8.toNat_toUInt16, Nat.shiftLeft_eq]
  simp only [lowestFirst, Int.bmod_def]
  split <;> split <;> omega

theorem isWord_wordOfPair (a b : UInt8) : ci16.IsWord [a, b] (wordOfPair a b) := by
  show (a.toUInt16 ||| b.toUInt16 <<< 8).toInt16.toInt = _
  rw [toInt_toInt16, toNat_pair]

theorem isWord_wordOfFloat (a b c d : UInt8) : cf32.IsWord [a, b, c, d] (wordOfFloat (floatOfBytes a b c d)) := by
  have float : floatOfBytes a b c d = Float32.ofBits (UInt32.ofNat (lowestFirst [a, b, c, d])) := by
    rw [← toNat_quadruple, UInt32.ofNat_toNat, floatOfBytes]
  have range : (-32768 : ℤ) ≤ 0 ∧ (0 : ℤ) ≤ 32767 := by decide
  have within := (Reading.ofFloat32 (floatOfBytes a b c d * 32767)).truncate_within range.1 range.2
  show Reading.CutsTo _ _ _ (Int16.ofInt _).toInt
  rw [Int16.toInt_ofInt_of_le within.1 (by omega), ← float]
  exact Reading.cutsTo_truncate _ _ _

/-! ## Decoding -/

variable {f : SampleFormat}

theorem decode_of_lt {bytes : List UInt8} (h : bytes.length < f.wordBytes) : f.decode bytes = [] := by
  fun_cases decode f bytes <;> simp_all [wordBytes]
  all_goals omega

/-- The first word stands before the words of the other bytes, whatever follows. -/
theorem decode_eq_cons {bytes : List UInt8} (h : f.wordBytes ≤ bytes.length) :
    ∃ word, f.IsWord (bytes.take f.wordBytes) word ∧ f.decode bytes = word :: f.decode (bytes.drop f.wordBytes)
      ∧ ∀ rest, f.decode (bytes ++ rest) = word :: f.decode (bytes.drop f.wordBytes ++ rest) := by
  cases f with
  | ci8 =>
    obtain _ | ⟨b, rest⟩ := bytes
    · simp [wordBytes] at h
    · exact ⟨_, isWord_wordOfByte b, rfl, fun _ => rfl⟩
  | ci16 =>
    obtain _ | ⟨a, _ | ⟨b, rest⟩⟩ := bytes
    · simp [wordBytes] at h
    · simp [wordBytes] at h
    · exact ⟨_, isWord_wordOfPair a b, rfl, fun _ => rfl⟩
  | cf32 =>
    obtain _ | ⟨a, _ | ⟨b, _ | ⟨c, _ | ⟨d, rest⟩⟩⟩⟩ := bytes
    · simp [wordBytes] at h
    · simp [wordBytes] at h
    · simp [wordBytes] at h
    · simp [wordBytes] at h
    · exact ⟨_, isWord_wordOfFloat a b c d, rfl, fun _ => rfl⟩

/-- Bytes are whole words first and then less than a word. -/
theorem wordwise {P : List UInt8 → Prop} (short : ∀ bytes, bytes.length < f.wordBytes → P bytes)
    (more : ∀ bytes, f.wordBytes ≤ bytes.length → P (bytes.drop f.wordBytes) → P bytes) (bytes : List UInt8) :
    P bytes := by
  have pos := f.wordBytes_pos
  induction h : bytes.length using Nat.strongRecOn generalizing bytes with
  | ind n ih =>
    by_cases enough : f.wordBytes ≤ bytes.length
    · exact more bytes enough (ih _ (by rw [List.length_drop]; omega) _ rfl)
    · exact short bytes (Nat.lt_of_not_le enough)

theorem decodes_decode (bytes : List UInt8) : f.Decodes bytes (f.decode bytes) := by
  induction bytes using wordwise (f := f) with
  | short bytes less =>
    rw [decode_of_lt less]
    refine ⟨?_, fun k h => absurd h (Nat.not_lt_zero k)⟩
    rw [Nat.div_eq_of_lt less]
    rfl
  | more bytes enough ih =>
    obtain ⟨word, isWord, cons, -⟩ := decode_eq_cons enough
    rw [cons]
    refine ⟨?_, fun k h => ?_⟩
    · rw [List.length_cons, ih.length, List.length_drop, ← Nat.div_eq_sub_div f.wordBytes_pos enough]
    · cases k with
      | zero =>
        rw [Nat.zero_mul]
        exact isWord
      | succ k =>
        have later := ih.isWord k (Nat.lt_of_succ_lt_succ h)
        rw [List.drop_drop] at later
        rw [Nat.succ_mul, Nat.add_comm]
        exact later

@[simp] theorem length_decode (bytes : List UInt8) : (f.decode bytes).length = bytes.length / f.wordBytes :=
  (decodes_decode bytes).length

/-- Pieces of whole words are decoded on their own. -/
theorem decode_append {bytes : List UInt8} (whole : f.wordBytes ∣ bytes.length) (rest : List UInt8) :
    f.decode (bytes ++ rest) = f.decode bytes ++ f.decode rest := by
  induction bytes using wordwise (f := f) with
  | short bytes less =>
    obtain rfl : bytes = [] := List.eq_nil_of_length_eq_zero (Nat.eq_zero_of_dvd_of_lt whole less)
    rw [decode_of_lt less]
    rfl
  | more bytes enough ih =>
    obtain ⟨word, -, alone, cons⟩ := decode_eq_cons enough
    have whole_rest : f.wordBytes ∣ (bytes.drop f.wordBytes).length := by
      rw [List.length_drop]
      exact Nat.dvd_sub whole (Nat.dvd_refl _)
    rw [cons, ih whole_rest, alone, List.cons_append]

/-! ## Stored words -/

/-- Words as 16-bit words in a file. -/
def image (words : List Int16) : List UInt8 :=
  words.flatMap fun word => [word.toUInt16.toUInt8, (word.toUInt16 >>> (8 : UInt16)).toUInt8]

theorem wordOfPair_image (word : Int16) :
    wordOfPair word.toUInt16.toUInt8 (word.toUInt16 >>> (8 : UInt16)).toUInt8 = word := by
  have bytes : (word.toUInt16.toUInt8.toUInt16 ||| (word.toUInt16 >>> (8 : UInt16)).toUInt8.toUInt16 <<< 8)
      = word.toUInt16 := by
    have := word.toUInt16.toNat_lt
    have shift : (8 : UInt16).toNat % 16 = 8 := rfl
    apply UInt16.toNat_inj.1
    rw [toNat_pair]
    simp only [lowestFirst, UInt16.toNat_toUInt8, UInt16.toNat_shiftRight, shift, Nat.shiftRight_eq_div_pow]
    omega
  rw [wordOfPair, bytes]
  rfl

/-- Words stored and decoded are the same words. -/
theorem decode_image (words : List Int16) : ci16.decode (image words) = words := by
  induction words with
  | nil => rfl
  | cons word rest ih =>
    show wordOfPair _ _ :: ci16.decode (image rest) = word :: rest
    rw [wordOfPair_image, ih]

end SampleFormat

end Panadapter
