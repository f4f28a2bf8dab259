import Panadapter.Fir.Tool
import Panadapter.Proofs.Fir.Refusals
import Panadapter.Proofs.Transport.Decoding

/-!
# A coefficient file in a dry run

In a dry run the filter tool shows every write that it would make. What it shows of an upload can be read back
(`RegisterWrite.ofShown?`), pair by pair (`RegisterMap.coefficientsShown?`), down to the bytes of the file.

* A word in hexadecimal digits reads back (`readHexWord?_hexWord`).
* The bytes of the words of a file are the file (`flatMap_bytesOfWord_wordsOfBytes`).
* So a dry run tells the file, or prints nothing (`dry_run_tells_file`).
-/

namespace Panadapter

/-! ## Words in hexadecimal digits -/

/-- The value of a hexadecimal digit; letters are small. -/
def hexDigit? (c : Char) : Option Nat := "0123456789abcdef".toList.idxOf? c

/-- A number continued by hexadecimal digits. -/
def hexNumber? : Nat → List Char → Option Nat
  | n, [] => some n
  | n, c :: rest => (hexDigit? c).bind fun d => hexNumber? (16 * n + d) rest

/-- The word of `0x` and eight hexadecimal digits. -/
def readHexWord? : List Char → Option UInt32
  | '0' :: 'x' :: ds => if ds.length = 8 then (hexNumber? 0 ds).map UInt32.ofNat else none
  | _ => none

/-- The write of a line: two words with an arrow between them. -/
def RegisterWrite.ofShown? (line : String) : Option RegisterWrite :=
  let cs := line.toList
  if (cs.drop 10).take 4 = " <- ".toList then
    (readHexWord? (cs.take 10)).bind fun address => (readHexWord? (cs.drop 14)).map fun word => ⟨address, word⟩
  else none

theorem hexDigit?_digitChar {d : Nat} (lt : d < 16) : hexDigit? (Nat.digitChar d) = some d := by
  have each : ∀ d < 16, hexDigit? (Nat.digitChar d) = some d := by decide
  exact each d lt

theorem hexNumber?_append (n : Nat) (ds es : List Char) :
    hexNumber? n (ds ++ es) = (hexNumber? n ds).bind fun m => hexNumber? m es := by
  induction ds generalizing n with
  | nil => rfl
  | cons c rest ih =>
    rw [List.cons_append, hexNumber?, hexNumber?]
    cases hexDigit? c with
    | none => rfl
    | some d => exact ih (16 * n + d)

theorem hexNumber?_zeros (k : Nat) (ds : List Char) : hexNumber? 0 (List.replicate k '0' ++ ds) = hexNumber? 0 ds := by
  induction k with
  | zero => rfl
  | succ k ih => exact ih

theorem hexNumber?_toDigits (n : Nat) : hexNumber? 0 (Nat.toDigits 16 n) = some n := by
  induction n using Nat.strong_induction_on with
  | h n ih =>
    by_cases small : n < 16
    · rw [Nat.toDigits_of_lt_base small, hexNumber?, hexDigit?_digitChar small]
      show some (16 * 0 + n) = some n
      rw [Nat.mul_zero, Nat.zero_add]
    · rw [Nat.toDigits_of_base_le (by decide) (Nat.le_of_not_lt small), hexNumber?_append, ih (n / 16) (by omega)]
      show (hexDigit? (n % 16).digitChar).bind (fun d => hexNumber? (16 * (n / 16) + d) []) = some n
      rw [hexDigit?_digitChar (Nat.mod_lt n (by decide))]
      show some (16 * (n / 16) + n % 16) = some n
      rw [Nat.div_add_mod]

theorem length_toDigits_word (w : UInt32) : (Nat.toDigits 16 w.toNat).length ≤ 8 :=
  (Nat.length_toDigits_le_iff (by decide) (by decide)).2 w.toNat_lt

theorem length_hexWord (w : UInt32) : (hexWord w).length = 10 := by
  have := length_toDigits_word w
  simp only [hexWord, List.length_cons, List.length_append, List.length_replicate]
  omega

/-- A word reads back from its digits. -/
theorem readHexWord?_hexWord (w : UInt32) : readHexWord? (hexWord w) = some w := by
  have short := length_toDigits_word w
  have eight : (List.replicate (8 - (Nat.toDigits 16 w.toNat).length) '0' ++ Nat.toDigits 16 w.toNat).length = 8 := by
    rw [List.length_append, List.length_replicate]
    omega
  rw [hexWord, readHexWord?, if_pos eight, hexNumber?_zeros, hexNumber?_toDigits, Option.map_some, UInt32.ofNat_toNat]

/-- A write reads back from its line. -/
theorem RegisterWrite.ofShown?_shown (w : RegisterWrite) : ofShown? w.shown = some w := by
  have address := length_hexWord w.address
  have line : w.shown.toList = hexWord w.address ++ (" <- ".toList ++ hexWord w.word) := by
    rw [shown, String.toList_ofList, List.append_assoc]
  have arrow : (w.shown.toList.drop 10).take 4 = " <- ".toList := by
    rw [line, List.drop_left' address]
    rfl
  have first : w.shown.toList.take 10 = hexWord w.address := by rw [line, List.take_left' address]
  have second : w.shown.toList.drop 14 = hexWord w.word := by
    rw [line, ← List.append_assoc, List.drop_left']
    rw [List.length_append, address]
    rfl
  rw [ofShown?, if_pos arrow, first, second, readHexWord?_hexWord, readHexWord?_hexWord]
  rfl

/-! ## Bytes of words -/

/-- The four bytes of a word, the lowest one first. -/
def bytesOfWord (w : UInt32) : List UInt8 := [w.toUInt8, (w >>> 8).toUInt8, (w >>> 16).toUInt8, (w >>> 24).toUInt8]

theorem bytesOfWord_wordOfBytes (a b c d : UInt8) : bytesOfWord (wordOfBytes a b c d) = [a, b, c, d] := by
  have word : (wordOfBytes a b c d).toNat = SampleFormat.lowestFirst [a, b, c, d] := SampleFormat.toNat_quadruple a b c d
  have := a.toNat_lt
  have := b.toNat_lt
  have := c.toNat_lt
  have := d.toNat_lt
  have shift8 : (8 : UInt32).toNat % 32 = 8 := rfl
  have shift16 : (16 : UInt32).toNat % 32 = 16 := rfl
  have shift24 : (24 : UInt32).toNat % 32 = 24 := rfl
  simp only [bytesOfWord, List.cons.injEq, ← UInt8.toNat_inj, UInt32.toNat_toUInt8, UInt32.toNat_shiftRight, shift8,
    shift16, shift24, Nat.shiftRight_eq_div_pow, word, SampleFormat.lowestFirst, and_true]
  omega

theorem length_lt_of_no_word {bytes : List UInt8} (short : ∀ a b c d rest, bytes = a :: b :: c :: d :: rest → False) :
    bytes.length < 4 := by
  match bytes with
  | [] | [_] | [_, _] | [_, _, _] => simp
  | a :: b :: c :: d :: rest => exact (short a b c d rest rfl).elim

/-- Words taken apart are the bytes that they came from. -/
theorem flatMap_bytesOfWord_wordsOfBytes {bytes : List UInt8} (whole : 4 ∣ bytes.length) :
    (wordsOfBytes bytes).flatMap bytesOfWord = bytes := by
  fun_induction wordsOfBytes bytes with
  | case1 a b c d rest ih =>
    rw [List.flatMap_cons, bytesOfWord_wordOfBytes, ih]
    · rfl
    · simp only [List.length_cons] at whole
      omega
  | case2 bytes short =>
    have none := Nat.eq_zero_of_dvd_of_lt whole (length_lt_of_no_word short)
    rw [List.length_eq_zero_iff.1 none, List.flatMap_nil]

theorem length_wordsOfBytes (bytes : List UInt8) : (wordsOfBytes bytes).length = bytes.length / 4 := by
  fun_induction wordsOfBytes bytes with
  | case1 a b c d rest ih =>
    simp only [List.length_cons, ih]
    omega
  | case2 bytes short => rw [Nat.div_eq_of_lt (length_lt_of_no_word short), List.length_nil]

/-! ## Coefficients out of shown writes -/

/-- The coefficients of shown writes from an index on: of every two lines the first one writes the index to the index
register and the second one the coefficient to the data register. -/
def RegisterMap.coefficientsShown? (m : RegisterMap) : Nat → List String → Option (List UInt32)
  | _, [] => some []
  | _, [_] => none
  | index, first :: second :: rest =>
    match RegisterWrite.ofShown? first, RegisterWrite.ofShown? second with
    | some a, some w =>
      if a.address = m.coeffWaddr ∧ a.word.toNat = index ∧ w.address = m.coeffWdata then
        (m.coefficientsShown? (index + 1) rest).map (w.word :: ·)
      else none
    | _, _ => none

theorem RegisterMap.coefficientsShown?_coefficientWrites (m : RegisterMap) {first : Nat} {words : List UInt32}
    (few : first + words.length ≤ 2 ^ 32) :
    m.coefficientsShown? first ((coefficientWrites m first words).map RegisterWrite.shown) = some words := by
  induction words generalizing first with
  | nil => rfl
  | cons word rest ih =>
    rw [List.length_cons] at few
    rw [coefficientWrites, List.map_cons, List.map_cons, coefficientsShown?, RegisterWrite.ofShown?_shown,
      RegisterWrite.ofShown?_shown, ih (by omega)]
    exact if_pos ⟨rfl, RegisterDevice.toNat_index (by omega), rfl⟩

/-! ## Dry runs -/

theorem loadCoefficients_of_whole {s : Storage} {path : String} {bytes : List UInt8} (found : s.readBytes path = .ok bytes)
    (whole : 4 ∣ bytes.length) : loadCoefficients s path = .ok (wordsOfBytes bytes) := by
  have parsed : parseCoefficients path bytes = .ok (wordsOfBytes bytes) := if_pos (Nat.mod_eq_zero_of_dvd whole)
  rw [loadCoefficients, found]
  exact parsed

/-- A coefficient file is refused if it cannot be read or is no list of whole words. -/
theorem loadCoefficients_refused_iff {s : Storage} {path : String} :
    (∃ e, loadCoefficients s path = .error e) ↔ ¬∃ bytes, s.readBytes path = .ok bytes ∧ 4 ∣ bytes.length := by
  constructor
  · rintro ⟨e, refused⟩ ⟨bytes, found, whole⟩
    rw [loadCoefficients_of_whole found whole] at refused
    cases refused
  · intro none
    unfold loadCoefficients
    cases found : s.readBytes path with
    | error e => exact ⟨_, rfl⟩
    | ok bytes =>
      have broken : ¬bytes.length % coefficientBytes = 0 :=
        fun whole => none ⟨bytes, found, Nat.dvd_of_mod_eq_zero whole⟩
      exact ⟨_, if_neg broken⟩

namespace FirTool

variable {t : FirTool} {s : Storage} {path : String}

theorem run_of_accepted {m : RegisterMap} {words : List UInt32} (dry : t.dryRun = true)
    (command : t.command = .coefficients path) (known : t.registerMap s = .ok m)
    (loaded : loadCoefficients s path = .ok words) : t.run s
      = .ok ((toString words.length ++ " coefficients written from " ++ path)
        :: (coefficientWrites m 0 words).map RegisterWrite.shown) := by
  have coefficients : t.coefficients s = .ok words := by
    rw [FirTool.coefficients, command]
    exact loaded
  obtain ⟨after, performed, writes⟩ := Recording.perform_device (coefficientWrites m 0 words) .empty
  have perform : t.perform words m Recording.device .empty
      = (.ok (toString words.length ++ " coefficients written from " ++ path), after) := by
    rw [FirTool.perform, command]
    dsimp only
    rw [upload, performed]
    rfl
  rw [Recording.writes_empty, List.nil_append] at writes
  rw [run, known, coefficients, ← writes]
  show (if t.dryRun = true then _ else _) = _
  rw [if_pos dry]
  show ((t.perform words m Recording.device .empty).1 >>= fun report =>
    pure (report :: (t.perform words m Recording.device .empty).2.writes.map RegisterWrite.shown)) = _
  rw [perform]
  rfl

theorem run_refused_iff (dry : t.dryRun = true) (command : t.command = .coefficients path) :
    (∃ e, t.run s = .error e) ↔ (∃ e, t.registerMap s = .error e) ∨ ∃ e, loadCoefficients s path = .error e := by
  cases known : t.registerMap s with
  | error e =>
    refine iff_of_true ⟨e, ?_⟩ (.inl ⟨e, rfl⟩)
    rw [run, known]
    rfl
  | ok m =>
    cases loaded : loadCoefficients s path with
    | error e =>
      refine iff_of_true ⟨e, ?_⟩ (.inr ⟨e, rfl⟩)
      have coefficients : t.coefficients s = .error e := by
        rw [FirTool.coefficients, command]
        exact loaded
      rw [run, known, coefficients]
      rfl
    | ok words =>
      rw [run_of_accepted dry command known loaded]
      simp

end FirTool

/-- **A dry run tells the file.** It fails, and then prints nothing, exactly if the registers or the file are refused; a
file is refused if it cannot be read or is no list of whole words. Else it prints the count of the words, and two lines a
word, out of which the bytes of the file can be read. -/
theorem dry_run_tells_file (t : FirTool) (s : Storage) (path : String) (dry : t.dryRun = true)
    (command : t.command = .coefficients path) :
    ((∃ e, t.run s = .error e) ↔ (∃ e, t.registerMap s = .error e) ∨ ∃ e, loadCoefficients s path = .error e)
    ∧ ((∃ e, loadCoefficients s path = .error e) ↔ ¬∃ bytes, s.readBytes path = .ok bytes ∧ 4 ∣ bytes.length)
    ∧ ∀ m bytes, t.registerMap s = .ok m → s.readBytes path = .ok bytes → 4 ∣ bytes.length →
      bytes.length / 4 < 2 ^ 32 →
      ∃ lines, t.run s = .ok ((toString (bytes.length / 4) ++ " coefficients written from " ++ path) :: lines)
        ∧ lines.length = 2 * (bytes.length / 4)
        ∧ (m.coefficientsShown? 0 lines).map (·.flatMap bytesOfWord) = some bytes := by
  refine ⟨FirTool.run_refused_iff dry command, loadCoefficients_refused_iff, ?_⟩
  intro m bytes known found whole few
  have count := length_wordsOfBytes bytes
  refine ⟨(coefficientWrites m 0 (wordsOfBytes bytes)).map RegisterWrite.shown, ?_, ?_, ?_⟩
  · rw [FirTool.run_of_accepted dry command known (loadCoefficients_of_whole found whole), count]
  · rw [List.length_map, length_coefficientWrites, count]
  · rw [m.coefficientsShown?_coefficientWrites (by omega), Option.map_some, flatMap_bytesOfWord_wordsOfBytes whole]

/-- A file of two words, and registers from 256 on. -/
theorem dry_run_tells_two_words :
    let t : FirTool := { firstRegister := some 256, dryRun := true, command := .coefficients "taps.bin" }
    let s := Storage.empty.write "taps.bin" { bytes := [1, 2, 3, 4, 5, 6, 7, 8] }
    t.dryRun = true ∧ t.command = .coefficients "taps.bin" ∧ ∃ lines,
      t.run s = .ok ("2 coefficients written from taps.bin" :: lines) ∧ lines.length = 4
        ∧ ((RegisterMap.ofBase 256).coefficientsShown? 0 lines).map (·.flatMap bytesOfWord)
          = some [1, 2, 3, 4, 5, 6, 7, 8] := by
  intro t s
  refine ⟨rfl, rfl, ?_⟩
  obtain ⟨-, -, tells⟩ := dry_run_tells_file t s "taps.bin" rfl rfl
  exact tells (.ofBase 256) [1, 2, 3, 4, 5, 6, 7, 8] rfl rfl (by decide) (by decide)

end Panadapter
