import Lifecycle.Table.Action

/-!
# Taking processes in, and undoing it

A process is taken in before its image is loaded, so that its id is known. If the load fails the
process is taken out again, and whoever had parked on it in the meantime has to be woken.
-/

namespace Lifecycle.Table

variable {Waker : Type}

open Lifecycle.Action

/-- Takes in a running process under a parent, or as the root if no parent is given, and answers
its id. It is refused if the table is full, if the parent does not run, or if there is a root
already. -/
def insert (parent : Option Pid) (name : String) : Action Waker Pid := do
  let current ← table
  if Limits.maxProcesses ≤ current.size then
    note .processLimitReached
    refuse .EAGAIN
  match parent with
  | some parent => if ¬ current.IsRunning parent then refuse .ESRCH
  | none => if current.root.isSome then refuse .EPERM
  match current.pids.take? with
  | none => refuse .EAGAIN
  | some (pid, pids) =>
    update ({ · with pids })
    if (current.record? pid).isSome then fault .pidInUse
    update fun table ↦
      { table.put (.fresh pid table.births name parent) with births := table.births + 1 }
    match parent with
    | some parent => addChild parent pid
    | none => update ({ · with root := some pid })
    update fun table ↦ { table with running := table.running + 1 }
    note (.inserted pid name parent)
    return pid

/-- Takes a process out again after its load failed. Answers the waker of a joiner that had parked
on it. -/
def withdraw (pid : Pid) : Action Waker (Option Waker) := do
  match (← table).record? pid with
  | none => return none
  | some record =>
    update (·.erase pid)
    holding record.waker?.toList do
      unless record.children.isEmpty do fault .childrenRemain
      update (·.unlink record.parent pid)
      update (·.unsetRoot pid)
      countEnded
      releasePid pid
      note (.withdrawn pid)
    return record.waker?

end Lifecycle.Table
