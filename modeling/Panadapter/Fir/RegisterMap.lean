import Panadapter.Fir.Registers
import Panadapter.Json.Decode
import Panadapter.Storage.Basic

/-! # Where the registers of the filter are

The five registers of the FIR stage, from the address of the first one or from the list of registers that comes with a
board.

* `RegisterMap.ofBase`: five registers in a row.
* `RegisterMap.ofRegisterList?`: registers found by the ends of their names.
* `RegisterMap.load?`: the same from a file.
-/

namespace Panadapter

/-- The addresses of the five registers. -/
structure RegisterMap where
  cfg : Address
  decimation : Address
  coeffWaddr : Address
  coeffWdata : Address
  operationsMinusOne : Address
  deriving DecidableEq, Repr, Inhabited

namespace RegisterMap

open Json (RecordField Read Tree)

/-- The distance between two registers in a row, in bytes. -/
def registerStride : UInt32 := 4

/-- Five registers in a row. Addresses are 32-bit words and wrap. -/
def ofBase (base : Address) : RegisterMap where
  cfg := base
  decimation := base + registerStride
  coeffWaddr := base + 2 * registerStride
  coeffWdata := base + 3 * registerStride
  operationsMinusOne := base + 4 * registerStride

/-- The addresses in order. -/
def toList (m : RegisterMap) : List Address :=
  [m.cfg, m.decimation, m.coeffWaddr, m.coeffWdata, m.operationsMinusOne]

/-- An address in a document. -/
def readAddress : Read Address := fun p t => (Json.readNat Json.largest32 p t).map UInt32.ofNat

/-- The members of a map. -/
def fields : List (RecordField RegisterMap) :=
  [.required "cfg" readAddress fun v m => { m with cfg := v },
   .required "decimation" readAddress fun v m => { m with decimation := v },
   .required "coeff_waddr" readAddress fun v m => { m with coeffWaddr := v },
   .required "coeff_wdata" readAddress fun v m => { m with coeffWdata := v },
   .required "operations_minus_one" readAddress fun v m => { m with operationsMinusOne := v }]

/-- A map in a document. -/
def read : Read RegisterMap := Json.readRecord fields ⟨0, 0, 0, 0, 0⟩

/-! ## The register list of a board -/

/-- Why a register list does not tell the addresses. -/
inductive Gap where
  | noRegisters
  | noRegister (suffix : String)
  | noAddress (suffix : String)
  | outOfRange (suffix : String)
  deriving DecidableEq, Repr

/-- The wording of a gap. -/
def Gap.message : Gap → String
  | noRegisters => "missing csr_registers"
  | noRegister suffix => "no register ending in " ++ suffix
  | noAddress suffix => "register " ++ suffix ++ " has no addr"
  | outOfRange suffix => suffix ++ " address out of range"

/-- The value of a member; the last one counts if the name is repeated. -/
def member? (name : String) (members : List (String × Tree)) : Option Tree :=
  (members.reverse.lookup name)

/-- The value of a member of an object. -/
def memberOf? (name : String) : Tree → Option Tree
  | .object members => member? name members
  | _ => none

/-- The first of two names, in the order of their characters. -/
def earlier (a b : String) : String := if b < a then b else a

/-- The first name, in the order of their characters, that ends in a suffix. -/
def firstEndingIn? (suffix : String) (members : List (String × Tree)) : Option String :=
  match (members.map Prod.fst).filter fun name => suffix.toList.isSuffixOf name.toList with
  | [] => none
  | name :: rest => some (rest.foldl earlier name)

/-- The address of the register whose name ends in a suffix. -/
def addressOf (members : List (String × Tree)) (suffix : String) : Except Gap Address :=
  match firstEndingIn? suffix members with
  | none => .error (.noRegister suffix)
  | some name =>
    match (member? name members).bind (memberOf? "addr") with
    | some (.number n) =>
      match Json.number? n with
      | some (.natural a) => if a ≤ Json.largest32 then .ok (UInt32.ofNat a) else .error (.outOfRange suffix)
      | _ => .error (.noAddress suffix)
    | _ => .error (.noAddress suffix)

/-- The map that a register list tells, register by register. -/
def ofRegisterList? (root : Tree) : Except Gap RegisterMap :=
  match memberOf? "csr_registers" root with
  | some (.object members) => do
    return {
      cfg := ← addressOf members "fir_cfg"
      decimation := ← addressOf members "fir_decimation"
      coeffWaddr := ← addressOf members "fir_coeff_waddr"
      coeffWdata := ← addressOf members "fir_coeff_wdata"
      operationsMinusOne := ← addressOf members "fir_operations_minus_one" }
  | _ => .error .noRegisters

/-- The map that a file of registers tells. -/
def load? (s : Storage) (path : String) : Except DeviceError RegisterMap := do
  let text ← (s.readText path).mapError fun e => .io e.message
  let root ← (Json.decode Json.readAny text).mapError fun e => .malformedFile path e.message
  (ofRegisterList? root).mapError fun gap => .malformedFile path gap.message

end RegisterMap

end Panadapter
