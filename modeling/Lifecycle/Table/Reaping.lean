import Lifecycle.Table.Action

/-!
# Reaping exited processes

A record leaves the table once its status has been collected, or once nobody is left who could
collect it. Reaping a process twice is refused; reaping one that runs, or one that somebody is
parked on, is a fault.
-/

namespace Lifecycle.Table

variable {Waker : Type}

open Lifecycle.Action

/-- Removes the record of an exited process, gives its id back and answers its status. There is no
fault for an exited process without a status: being in that phase, it has one. -/
def reap (pid : Pid) : Action Waker ExitStatus := do
  match (← table).record? pid with
  | none => refuse .ECHILD
  | some record =>
    match record.phase with
    | .running =>
      note (.reapOfRunning pid)
      fault (.reapedRunning pid)
    | .exited status =>
      update (·.erase pid)
      match record.waker? with
      | some waker =>
        note (.reapOfParked pid)
        holding [waker] (fault (.reapedParked pid))
      | none =>
        unless record.children.isEmpty do fault .childrenRemain
        update (·.unlink record.parent pid)
        update (·.unsetRoot pid)
        releasePid pid
        note (.reaped pid)
        return status

end Lifecycle.Table
