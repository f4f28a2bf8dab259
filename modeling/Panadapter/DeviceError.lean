/-! # Errors of devices and their files

What can go wrong with a radio board, a capture or a configuration file, by cause.
-/

namespace Panadapter

/-- Why a device or one of its files cannot be used. `io` carries the words of the failed file operation. -/
inductive DeviceError where
  | unavailable (device reason : String)
  | malformedFile (path reason : String)
  | invalidConfig (reason : String)
  | io (reason : String)
  deriving DecidableEq, Repr

/-- The wording of a device error. -/
def DeviceError.message : DeviceError → String
  | unavailable device reason => "device " ++ device ++ " unavailable: " ++ reason
  | malformedFile path reason => "malformed configuration file " ++ path ++ ": " ++ reason
  | invalidConfig reason => "invalid configuration: " ++ reason
  | io reason => reason

end Panadapter
