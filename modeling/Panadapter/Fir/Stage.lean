import Panadapter.Fir.RegisterMap
import Panadapter.Log

/-! # The filter stage

Loading coefficients into the FIR stage, and setting what it does with them. Both are plain lists of writes; nothing is
written before everything is known to be right.

* `parseCoefficients`, `loadCoefficients`: the words of a coefficient file.
* `coefficientWrites`, `upload`: coefficients one by one, each behind its index.
* `FirConfig.writes`, `FirConfig.apply`: decimation, operations and parity.
-/

namespace Panadapter

/-- The size of a coefficient, in bytes. -/
def coefficientBytes : Nat := 4

/-- The largest decimation: its register has seven bits. -/
def maxDecimation : UInt32 := 127

/-- The largest count of operations: one less fits seven bits. -/
def maxOperations : UInt32 := 128

/-- The word of four bytes, the lowest one first. -/
def wordOfBytes (a b c d : UInt8) : UInt32 :=
  a.toUInt32 ||| b.toUInt32 <<< 8 ||| c.toUInt32 <<< 16 ||| d.toUInt32 <<< 24

/-- The whole words of bytes, in order. -/
def wordsOfBytes : List UInt8 → List UInt32
  | a :: b :: c :: d :: rest => wordOfBytes a b c d :: wordsOfBytes rest
  | _ => []

/-- The coefficients in the bytes of a file, which have to be whole words. -/
def parseCoefficients (path : String) (bytes : List UInt8) : Except DeviceError (List UInt32) :=
  if bytes.length % coefficientBytes = 0 then .ok (wordsOfBytes bytes)
  else
    .error (.malformedFile path
      ("length " ++ toString bytes.length ++ " is not a multiple of " ++ toString coefficientBytes ++ " bytes"))

/-- The coefficients in a file. -/
def loadCoefficients (s : Storage) (path : String) : Except DeviceError (List UInt32) := do
  let bytes ← (s.readBytes path).mapError fun e => .malformedFile path ("read failed: " ++ e.message)
  parseCoefficients path bytes

/-- Coefficients from an index on: the index to the address register, the word to the data register. -/
def coefficientWrites (m : RegisterMap) : Nat → List UInt32 → List RegisterWrite
  | _, [] => []
  | index, word :: rest =>
    ⟨m.coeffWaddr, UInt32.ofNat index⟩ :: ⟨m.coeffWdata, word⟩ :: coefficientWrites m (index + 1) rest

/-- All coefficients onto a device, with their count. -/
def upload {ρ : Type} (d : RegisterDevice ρ) (m : RegisterMap) (words : List UInt32) (state : ρ) :
    Except DeviceError Nat × Log × ρ :=
  match d.perform (coefficientWrites m 0 words) state with
  | (.error e, state) => (.error e, [], state)
  | (.ok (), state) =>
    (.ok words.length, .info ("uploaded " ++ toString words.length ++ " FIR coefficients"), state)

/-- What the stage does: how many samples make one, with how many operations, and whether their count is odd. -/
structure FirConfig where
  decimation : UInt32
  operations : UInt32
  oddOperations : Bool
  deriving DecidableEq, Repr

namespace FirConfig

/-- What is out of range, decimation first. -/
def validate (c : FirConfig) : Except DeviceError Unit :=
  if c.decimation = 0 ∨ maxDecimation < c.decimation then
    .error (.invalidConfig
      ("decimation must be 1..=" ++ toString maxDecimation ++ " (got " ++ toString c.decimation ++ ")"))
  else if c.operations = 0 ∨ maxOperations < c.operations then
    .error (.invalidConfig
      ("operations must be 1..=" ++ toString maxOperations ++ " (got " ++ toString c.operations ++ ")"))
  else .ok ()

/-- The writes that set the stage up. -/
def writes (c : FirConfig) (m : RegisterMap) : List RegisterWrite :=
  [⟨m.decimation, c.decimation⟩, ⟨m.operationsMinusOne, c.operations - 1⟩,
   ⟨m.cfg, if c.oddOperations then 1 else 0⟩]

/-- The stage of a device set up, unless something is out of range. -/
def apply {ρ : Type} (c : FirConfig) (d : RegisterDevice ρ) (m : RegisterMap) (state : ρ) :
    Except DeviceError Unit × Log × ρ :=
  match c.validate with
  | .error e => (.error e, [], state)
  | .ok () =>
    match d.perform (c.writes m) state with
    | (.error e, state) => (.error e, [], state)
    | (.ok (), state) =>
      (.ok (),
        .info ("FIR configured: decimation=" ++ toString c.decimation ++ " operations=" ++ toString c.operations
          ++ " odd=" ++ (if c.oddOperations then "true" else "false")),
        state)

end FirConfig

end Panadapter
