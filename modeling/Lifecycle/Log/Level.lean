/-!
# Log levels

Every log record has one of five levels, from errors to traces. A threshold lets through the
levels at least as severe as itself; `none` as a threshold lets nothing through.
-/

namespace Lifecycle.Log

inductive Level where
  | error
  | warn
  | info
  | debug
  | trace
  deriving DecidableEq, Repr

namespace Level

/-- The most severe level has rank 1. -/
def rank : Level → Nat
  | error => 1
  | warn => 2
  | info => 3
  | debug => 4
  | trace => 5

def name : Level → String
  | error => "ERROR"
  | warn => "WARN"
  | info => "INFO"
  | debug => "DEBUG"
  | trace => "TRACE"

/-- The terminal colour a level is shown in. -/
def colour : Level → Nat
  | error => 31
  | warn => 93
  | info => 36
  | debug => 32
  | trace => 90

/-- The level with a given lower-case name. -/
def ofName? : String → Option Level
  | "error" => some error
  | "warn" => some warn
  | "info" => some info
  | "debug" => some debug
  | "trace" => some trace
  | _ => none

end Level

/-- The largest rank that is let through, as a level; `none` is silence. -/
abbrev Threshold := Option Level

namespace Threshold

/-- The threshold a setting asks for; anything but a level's name means silence. -/
def ofSetting (setting : Option String) : Threshold :=
  setting.bind Level.ofName?

def name : Threshold → String
  | some level => level.name
  | none => "OFF"

def allows : Threshold → Level → Bool
  | some threshold, level => level.rank ≤ threshold.rank
  | none, _ => false

end Threshold

end Lifecycle.Log
