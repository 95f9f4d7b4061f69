import Lifecycle.Table.Termination

/-!
# Ending processes and the machine

The termination handler ends a process, wakes whoever has to learn of it and, when no process is
left that runs, shuts the machine down.
-/

namespace Lifecycle.Kernel

variable {Waker : Type}

open Lifecycle.Action

/-- Drops all records, wakes all parked joiners and stops the machine. -/
def shutdown : Action Waker Unit := do
  let parked ← Table.clear
  parked.forM wake
  emit (.stop (← table).size)

/-- Ends a process with a status. -/
def terminate (pid : Pid) (status : ExitStatus) : Action Waker Unit := do
  let ending ← Table.terminate pid status
  note (.ended pid status)
  ending.wakers.forM wake
  if ending.isLast then
    note .lastEnded
    shutdown

end Lifecycle.Kernel
