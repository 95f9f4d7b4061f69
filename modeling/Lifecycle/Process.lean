import Lifecycle.Word

/-!
# Processes from the outside

What others know a process by: its id, and the status it ends with. A process ends in one of two
ways: it exits with a code, or it is killed. Until it ends, and a while longer, it is in one of two
phases.
-/

namespace Lifecycle

abbrev Pid := Nat

/-- The process a user program means by a number; negative numbers name none. -/
def Pid.ofUser? (raw : Int32) : Option Pid :=
  if raw < 0 then none else some raw.toInt.toNat

inductive ExitStatus where
  | exited (code : Int32)
  | killed
  deriving DecidableEq, Repr

namespace ExitStatus

/-- The code of a process that was not killed. -/
def code? : ExitStatus → Option Int32
  | exited code => some code
  | killed => none

def describe : ExitStatus → String
  | exited code => s!"Exited({code.toInt})"
  | killed => "Killed"

end ExitStatus

/-- How far a process has come. That it has ended and the status it ended with are only ever written
together, so the two are one value here: whoever has ended has a status, and nobody else has. -/
inductive Phase where
  | running
  /-- The process has ended, and nobody has collected its status yet. -/
  | exited (status : ExitStatus)
  deriving DecidableEq, Repr

namespace Phase

def status? : Phase → Option ExitStatus
  | running => none
  | exited status => some status

def name : Phase → String
  | running => "Running"
  | exited _ => "Exited"

end Phase

end Lifecycle
