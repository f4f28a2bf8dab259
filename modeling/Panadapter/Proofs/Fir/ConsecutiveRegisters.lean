import Mathlib.Algebra.Ring.Nat
import Panadapter.Fir.Tool
import Panadapter.Proofs.CommandLine.Kept

/-!
# Consecutive registers

The filter tool can be told the address of the first register only; the others then follow in a row. Addresses are
32-bit words, and every one of them is accepted for the first register.

* What is given for the first register is an address, and no register list is given beside it (`FirTool.of_parse`).
* Every address is taken (`FirTool.parse_base`).
* The registers are in a row exactly if the last one has an address (`RegisterMap.inRow_ofBase_iff`). Otherwise it is
  one of the first addresses of all.
* So it is for all that the tool accepts (`registers_in_row_iff`).
-/

namespace Panadapter

/-! ## Registers in a row -/

namespace RegisterMap

/-- Five registers from an address on, each one behind the other. -/
structure InRow (m : RegisterMap) (base : Nat) : Prop where
  cfg : m.cfg.toNat = base
  decimation : m.decimation.toNat = base + 4
  coeffWaddr : m.coeffWaddr.toNat = base + 8
  coeffWdata : m.coeffWdata.toNat = base + 12
  operationsMinusOne : m.operationsMinusOne.toNat = base + 16

/-- The addresses of such registers increase. -/
theorem InRow.increasing {m : RegisterMap} {base : Nat} (r : m.InRow base) : m.toList.Pairwise (· < ·) := by
  obtain ⟨cfg, decimation, waddr, wdata, operations⟩ := r
  simp only [toList, List.pairwise_cons, List.forall_mem_cons, UInt32.lt_iff_toNat_lt, cfg, decimation, waddr, wdata,
    operations]
  simp

/-- The place of each register as a word that may wrap. -/
theorem places_ofBase (base : Address) : (ofBase base).cfg.toNat = base.toNat
    ∧ (ofBase base).decimation.toNat = (base.toNat + 4) % 2 ^ 32
    ∧ (ofBase base).coeffWaddr.toNat = (base.toNat + 8) % 2 ^ 32
    ∧ (ofBase base).coeffWdata.toNat = (base.toNat + 12) % 2 ^ 32
    ∧ (ofBase base).operationsMinusOne.toNat = (base.toNat + 16) % 2 ^ 32 := by
  simp [ofBase, registerStride, UInt32.toNat_add]

theorem inRow_ofBase_iff (base : Address) : (ofBase base).InRow base.toNat ↔ base.toNat + 16 < 2 ^ 32 := by
  obtain ⟨cfg, decimation, waddr, wdata, operations⟩ := places_ofBase base
  constructor
  · intro r
    have := r.operationsMinusOne
    omega
  · intro lt
    exact ⟨by omega, by omega, by omega, by omega, by omega⟩

end RegisterMap

/-! ## What is given for the first register -/

namespace FirTool

open CommandLine (Grammar Progress putKeeps_flag putKeeps_value)
open Outcome (bind_eq_ok_iff toOption_eq_some_iff)

variable {t : FirTool} {args : List String} {text : String} {base : Address}

/-- What the arguments of a tool say of the registers has been given, and the first register has an address that is
accepted. -/
structure NotesRegisters (t : FirTool) (given : List String) : Prop where
  registerList : t.registerList ≠ none → "csr-json" ∈ given
  firstRegister : t.firstRegister ≠ none → "csr-base" ∈ given
  address : ∀ base, t.firstRegister = some base → ∃ text, parseAddress text = .ok base

/-- An option of something else changes nothing in this. -/
theorem NotesRegisters.other {u : FirTool} {given : List String} (n : t.NotesRegisters given) (name : String)
    (registerList : u.registerList = t.registerList) (firstRegister : u.firstRegister = t.firstRegister) :
    u.NotesRegisters (name :: given) where
  registerList := by
    rw [registerList]
    exact fun told => List.mem_cons_of_mem name (n.registerList told)
  firstRegister := by
    rw [firstRegister]
    exact fun told => List.mem_cons_of_mem name (n.firstRegister told)
  address := by
    rw [firstRegister]
    exact n.address

theorem grammar_keeps : grammar.Keeps NotesRegisters where
  options := by
    simp only [grammar, List.forall_mem_cons]
    refine ⟨?_, ?_, ?_, ?_, ?_, fun _ mem => absurd mem List.not_mem_nil⟩
    · exact putKeeps_value fun _ _ _ _ _ n => n.other "device-num" rfl rfl
    · refine putKeeps_value fun _ path t given _ n => ?_
      exact ⟨fun _ => List.mem_cons_self, fun told => List.mem_cons_of_mem _ (n.firstRegister told), n.address⟩
    · refine putKeeps_value fun text base t given read n => ?_
      refine ⟨fun told => List.mem_cons_of_mem _ (n.registerList told), fun _ => List.mem_cons_self, ?_⟩
      rintro _ ⟨⟩
      exact ⟨text, toOption_eq_some_iff.1 read⟩
    · exact putKeeps_flag fun _ _ n => n.other "dry-run" rfl rfl
    · exact putKeeps_flag fun _ _ n => n.other "verbose" rfl rfl
  positionals := nofun

/-- Where the first register is given, it is by a text that is accepted, and no register list is given beside it. -/
theorem of_parse (parsed : parse args = .ok t) (first : t.firstRegister = some base) :
    t.registerList = none ∧ ∃ text, parseAddress text = .ok base := by
  have blank : ({} : FirTool).NotesRegisters [] := ⟨fun told => absurd rfl told, fun told => absurd rfl told, nofun⟩
  obtain ⟨⟨p, below⟩, scanned, rest⟩ := bind_eq_ok_iff.1 parsed
  have holds : p.Holds NotesRegisters := grammar_keeps.scan (.start blank) scanned
  cases below with
  | none => cases rest
  | some below =>
    obtain ⟨command, -, done⟩ := bind_eq_ok_iff.1 rest
    obtain ⟨before, finished, same⟩ := bind_eq_ok_iff.1 done
    obtain rfl := Except.ok.inj same
    obtain ⟨given, notes, apart⟩ := Grammar.Keeps.finish holds finished
    refine ⟨?_, notes.address base first⟩
    by_contra told
    have base_given : "csr-base" ∈ given := notes.firstRegister fun none => by
      rw [none] at first
      cases first
    exact apart ("csr-json", "csr-base") (List.mem_singleton_self _) ⟨notes.registerList told, base_given⟩

theorem registerMap_of_firstRegister (alone : t.registerList = none) (first : t.firstRegister = some base)
    (s : Storage) : t.registerMap s = .ok (.ofBase base) := by
  rw [registerMap, alone, first]

/-- Every text that is accepted for the first register is taken. -/
theorem parse_base (accepted : parseAddress text = .ok base) :
    parse ["--csr-base=" ++ text, "coefficients", "taps.bin"]
      = .ok { firstRegister := some base, command := .coefficients "taps.bin" } := by
  have characters : ("--csr-base=" ++ text).toList = '-' :: '-' :: ("csr-base".toList ++ '=' :: text.toList) := by
    rw [String.toList_append]
    rfl
  have option : grammar.scanLong (.start {}) ("csr-base".toList ++ '=' :: text.toList)
      = .ok ⟨{ firstRegister := some base }, ["csr-base"], 0, none⟩ := by
    have apart : '=' ∉ "csr-base".toList := by decide
    have no_help : String.ofList "csr-base".toList ≠ "help" := by decide
    have found : (grammar.options.find? fun o => o.long == String.ofList "csr-base".toList)
        = some (.value "csr-base" none (fun text => (parseAddress text).toOption)
          fun a t => { t with firstRegister := some a }) := rfl
    refine Grammar.scanLong_value apart no_help found rfl rfl ?_ ?_
    · exact List.not_mem_nil
    · show (parseAddress (String.ofList text.toList)).toOption.map _ = _
      rw [String.ofList_toList, accepted]
      rfl
  have other : "--csr-base=" ++ text ∉ grammar.commands := by
    intro mem
    rcases List.mem_pair.1 mem with same | same
    · cases characters.symm.trans (congrArg String.toList same)
    · cases characters.symm.trans (congrArg String.toList same)
  rw [parse, Grammar.scan_long characters nofun other, option]
  rfl

end FirTool

/-- **Consecutive registers.** Every text that is accepted for the first register is taken. Whenever its address is
used, the registers are five increasing addresses in a row exactly if the last one is below the end of all addresses. If
not, the last one is among the first sixteen addresses of all, and before the first one. -/
theorem registers_in_row_iff (text : String) (base : Address) (accepted : parseAddress text = .ok base) :
    (∃ args t, FirTool.parse args = .ok t ∧ t.firstRegister = some base)
      ∧ ((∀ args t, FirTool.parse args = .ok t → t.firstRegister = some base →
          ∀ s, ∃ m, t.registerMap s = .ok m ∧ m.InRow base.toNat ∧ m.toList.Pairwise (· < ·))
        ↔ base.toNat + 16 < 2 ^ 32)
      ∧ (2 ^ 32 ≤ base.toNat + 16 → ∀ args t, FirTool.parse args = .ok t → t.firstRegister = some base →
          ∀ s, ∃ m, t.registerMap s = .ok m ∧ m.operationsMinusOne.toNat < 16 ∧ m.operationsMinusOne < m.cfg) := by
  have taken := FirTool.parse_base accepted
  refine ⟨⟨_, _, taken, rfl⟩, ⟨fun all => ?_, fun lt args t parsed first s => ?_⟩,
    fun wraps args t parsed first s => ?_⟩
  · obtain ⟨m, known, row, -⟩ := all _ _ taken rfl .empty
    obtain rfl := Except.ok.inj known
    exact (RegisterMap.inRow_ofBase_iff base).1 row
  · obtain ⟨alone, -⟩ := FirTool.of_parse parsed first
    have row := (RegisterMap.inRow_ofBase_iff base).2 lt
    exact ⟨_, FirTool.registerMap_of_firstRegister alone first s, row, row.increasing⟩
  · obtain ⟨alone, -⟩ := FirTool.of_parse parsed first
    have last : (RegisterMap.ofBase base).operationsMinusOne.toNat = (base.toNat + 16) % 2 ^ 32 :=
      (RegisterMap.places_ofBase base).2.2.2.2
    have first_place : (RegisterMap.ofBase base).cfg.toNat = base.toNat := rfl
    have := base.toNat_lt
    refine ⟨_, FirTool.registerMap_of_firstRegister alone first s, by omega, ?_⟩
    rw [UInt32.lt_iff_toNat_lt]
    omega

/-- Registers from 4096 on. -/
theorem registers_in_row_hexadecimal : parseAddress "0x1000" = .ok 4096 ∧ ∃ m, m.InRow 4096
    ∧ FirTool.registerMap { firstRegister := some 4096, command := .coefficients "taps.bin" } .empty = .ok m := by
  have accepted : parseAddress "0x1000" = .ok 4096 := by decide +kernel
  obtain ⟨-, row_iff, -⟩ := registers_in_row_iff "0x1000" 4096 accepted
  obtain ⟨m, known, row, -⟩ := row_iff.2 (by decide) _ _ (FirTool.parse_base accepted) rfl .empty
  exact ⟨accepted, m, row, known⟩

/-- So there are texts that are accepted, and addresses that wrap. -/
theorem not_forall_registers_in_row : ¬∀ (text : String) (base : Address), parseAddress text = .ok base →
    ∀ args t, FirTool.parse args = .ok t → t.firstRegister = some base →
      ∀ s, ∃ m, t.registerMap s = .ok m ∧ m.InRow base.toNat ∧ m.toList.Pairwise (· < ·) := by
  intro all
  have accepted : parseAddress "0xfffffff0" = .ok 0xfffffff0 := by decide +kernel
  obtain ⟨m, known, row, -⟩ := all _ _ accepted _ _ (FirTool.parse_base accepted) rfl .empty
  obtain rfl := Except.ok.inj known
  exact absurd ((RegisterMap.inRow_ofBase_iff _).1 row) (by decide)

end Panadapter
