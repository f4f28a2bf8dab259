/-! # Log lines

What the parts of the scope report while they run: a level and a text.
-/

namespace Panadapter

/-- How serious a line is. -/
inductive LogLevel where
  | error
  | warn
  | info
  | debug
  deriving DecidableEq, Repr

/-- The name of a level. -/
def LogLevel.name : LogLevel → String
  | error => "ERROR"
  | warn => "WARN"
  | info => "INFO"
  | debug => "DEBUG"

/-- Levels from the most serious one on. -/
def LogLevel.rank : LogLevel → Nat
  | error => 0
  | warn => 1
  | info => 2
  | debug => 3

/-- One line of the log. -/
structure LogLine where
  level : LogLevel
  text : String
  deriving DecidableEq, Repr

/-- A line as it is shown. -/
def LogLine.shown (l : LogLine) : String := l.level.name ++ ": " ++ l.text

/-- Lines in the order in which they were reported. -/
abbrev Log := List LogLine

/-- The lines that are at least as serious as a level. -/
def Log.upTo (level : LogLevel) (log : Log) : Log := log.filter fun l => l.level.rank ≤ level.rank

/-- A log of one informative line. -/
def Log.info (text : String) : Log := [⟨.info, text⟩]

/-- A log of one warning. -/
def Log.warn (text : String) : Log := [⟨.warn, text⟩]

/-- A log of one error. -/
def Log.error (text : String) : Log := [⟨.error, text⟩]

end Panadapter
