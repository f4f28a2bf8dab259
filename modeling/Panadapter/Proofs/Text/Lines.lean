import Panadapter.Text.Utf8

/-!
# Lines of a text

The lines of a text are what stands between its line feeds. In UTF-8 a line feed is one byte, which stands in no other
character.

* So the lines of the bytes of a text are the bytes of its lines (`lines_encode`).
* Each of them is a text again (`ofBytes?_encode`).
-/

namespace Panadapter.Text

/-- The bytes of characters in UTF-8. -/
def encode (cs : List Char) : List UInt8 := cs.flatMap String.utf8EncodeChar

/-- The lines of characters, without the line feeds that end them. The last line need not have one. -/
def linesOf (cs : List Char) : List (List Char) :=
  let pieces := cs.splitOn '\n'
  if pieces.getLast? = some [] then pieces.dropLast else pieces

/-- The bytes of a text. -/
theorem toUTF8_eq (text : String) : text.toUTF8.data.toList = encode text.toList := by
  rw [String.toUTF8_eq_toByteArray, ← String.utf8Encode_toList, List.utf8Encode, List.toList_data_toByteArray, encode]

theorem ofBytes?_encode (cs : List Char) : ofBytes? (encode cs) = some (String.ofList cs) := by
  have valid : (encode cs).toByteArray.IsValidUTF8 := .intro cs rfl
  rw [ofBytes?, String.fromUTF8?, dif_pos valid]
  refine congrArg some (String.toByteArray_inj.1 ?_)
  rw [String.toByteArray_ofList]
  rfl

theorem encode_eq_nil_iff {cs : List Char} : encode cs = [] ↔ cs = [] := by
  cases cs with
  | nil => simp [encode]
  | cons c rest => simp [encode]

/-! ## Line feeds -/

/-- A byte of a character is its code or has the highest bit. -/
theorem toNat_of_mem_utf8EncodeChar (c : Char) :
    ∀ b ∈ String.utf8EncodeChar c, b.toNat = c.val.toNat ∨ 128 ≤ b.toNat := by
  fun_cases String.utf8EncodeChar c <;>
    simp only [List.mem_cons, List.not_mem_nil, or_false, forall_eq_or_imp, forall_eq, UInt8.toNat_ofNat'] <;> omega

theorem lineFeed_notMem_utf8EncodeChar {c : Char} (other : c ≠ '\n') : lineFeed ∉ String.utf8EncodeChar c := by
  intro mem
  rcases toNat_of_mem_utf8EncodeChar c lineFeed mem with code | high
  · exact other (Char.ext (UInt32.toNat_inj.1 code.symm))
  · exact absurd high (by decide)

theorem splitOn_append_of_notMem {a : UInt8} {first : List UInt8} (absent : a ∉ first) (rest : List UInt8) :
    (first ++ rest).splitOn a = (rest.splitOn a).modifyHead (first ++ ·) := by
  induction first with
  | nil =>
    rw [List.nil_append]
    cases rest.splitOn a <;> rfl
  | cons b first ih =>
    rw [List.mem_cons, not_or] at absent
    have other : (b == a) = false := beq_eq_false_iff_ne.2 (Ne.symm absent.1)
    rw [List.cons_append, List.splitOn_cons_eq_if_modifyHead, other, ih absent.2]
    simp [Function.comp_def]

/-- Bytes are split at the same places as characters. -/
theorem splitOn_encode (cs : List Char) : (encode cs).splitOn lineFeed = (cs.splitOn '\n').map encode := by
  induction cs with
  | nil => rfl
  | cons c rest ih =>
    have split : encode (c :: rest) = String.utf8EncodeChar c ++ encode rest := List.flatMap_cons
    rw [split, List.splitOn_cons_eq_if_modifyHead]
    by_cases feed : c = '\n'
    · subst feed
      have byte : String.utf8EncodeChar '\n' = [lineFeed] := by decide
      rw [byte, List.singleton_append, List.splitOn_cons_eq_if_modifyHead, ih]
      rfl
    · rw [splitOn_append_of_notMem (lineFeed_notMem_utf8EncodeChar feed), ih, if_neg (by simpa using feed)]
      cases rest.splitOn '\n' with
      | nil => rfl
      | cons piece more => simp [encode]

theorem lines_encode (cs : List Char) : lines (encode cs) = (linesOf cs).map encode := by
  have ended : (((cs.splitOn '\n').map encode).getLast? = some []) ↔ (cs.splitOn '\n').getLast? = some [] := by
    rw [List.getLast?_map, Option.map_eq_some_iff]
    constructor
    · rintro ⟨piece, last, empty⟩
      rw [last, encode_eq_nil_iff.1 empty]
    · intro last
      exact ⟨[], last, rfl⟩
  simp only [lines, linesOf, splitOn_encode]
  by_cases last : (cs.splitOn '\n').getLast? = some []
  · rw [if_pos last, if_pos (ended.2 last), List.map_dropLast]
  · rw [if_neg last, if_neg (mt ended.1 last)]

end Panadapter.Text
