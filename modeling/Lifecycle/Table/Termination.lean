import Lifecycle.Table.Reaping

/-!
# Ending processes

A process that ends keeps its record, with the status, until its parent collects it. Its children
go to the root, and whoever was waiting for them on the old parent's behalf loses the slot and is
woken. A process without a parent is reaped at once, for nobody can collect it.
-/

namespace Lifecycle.Table

variable {Waker : Type}

open Lifecycle.Action

/-- What is left to do when a process has ended. -/
structure Ending (Waker : Type) where
  /-- Joiners to wake: the one parked on the process, then those of its children. -/
  wakers : List Waker
  /-- No process runs any more. -/
  isLast : Bool

/-- Moves a process under another parent, or under none. Answers the waker of the joiner that
loses its slot thereby. An exited process that has no parent any more is reaped. -/
def adopt (child : Pid) (parent : Option Pid) : Action Waker (Option Waker) := do
  let record ← linkedRecord child
  update (·.put { record with claim := none, parent })
  holding record.waker?.toList do
    match parent, record.phase with
    | some parent, _ => addChild parent child
    | none, .exited _ =>
      let _ ← attempt (reap child)
      pure ()
    | none, .running => pure ()
    note (.adopted child parent)
  return record.waker?

/-- Moves processes under another parent one after the other. Answers the wakers in hand before,
followed by those of the joiners that lose their slots. -/
def adoptAll (parent : Option Pid) : List Pid → List Waker → Action Waker (List Waker)
  | [], wakers => return wakers
  | child :: rest, wakers => do
    let revoked ← holding wakers (adopt child parent)
    adoptAll parent rest (wakers ++ revoked.toList)

/-- Ends a process with a status. -/
def terminate (pid : Pid) (status : ExitStatus) : Action Waker (Ending Waker) := do
  let current ← table
  match current.record? pid with
  | none => refuse .ESRCH
  | some record =>
    match record.phase with
    | .exited first =>
      note (.terminatedTwice pid record.name first status)
      fault (.terminatedTwice pid)
    | .running =>
      update (·.put { record.takeWaker with phase := .exited status, children := ∅ })
      let own := record.waker?.toList
      holding own countEnded
      let heir := current.root.filter (· ≠ pid)
      let wakers ← adoptAll heir record.children.toList own
      update (·.unsetRoot pid)
      if record.parent.isNone then
        let _ ← holding wakers (reap pid)
      return ⟨wakers, (← table).running = 0⟩

/-- Drops all records and makes all ids fresh. Answers the wakers of parked joiners in the order
of the processes they were parked on. -/
def clear : Action Waker (List Waker) := do
  let current ← table
  note (.cleared current.size)
  update fun table ↦ { (Table.empty : Table Waker) with births := table.births }
  return current.recordList.filterMap (·.waker?)

end Lifecycle.Table
