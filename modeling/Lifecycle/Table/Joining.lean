import Lifecycle.Table.Reaping

/-!
# Waiting for a child

A joiner is a token and a waker. It may wait for a child of the process it acts for, one joiner
per child. If the child has exited the joiner collects the status and the child is reaped;
otherwise the joiner takes the child's slot and leaves its waker there.
-/

namespace Lifecycle.Table

variable {Waker : Type}

open Lifecycle.Action

/-- Loses the waker of a claim that is replaced or dropped. -/
def discardClaim (claim : Option (Claim Waker)) : Action Waker Unit :=
  (claim.bind (·.waker)).toList.forM discard

/-- One attempt of a joiner to collect the status of a child. Answers nothing if the child still
runs, and then the slot is the joiner's. It is `ECHILD` if the target is not a child of the
caller, and `EBUSY` if the slot is another joiner's. -/
def join (caller target : Pid) (token : Nat) (waker : Waker) :
    Action Waker (Option ExitStatus) := do
  if caller = target then refuse .ECHILD
  match (← table).record? target with
  | none => refuse .ECHILD
  | some record =>
    if record.parent ≠ some caller then refuse .ECHILD
    if record.claim.any (·.token ≠ token) then refuse .EBUSY
    match record.phase with
    | .exited _ =>
      update (·.put { record with claim := none })
      discardClaim record.claim
      return some (← reap target)
    | .running =>
      update (·.put { record with claim := some ⟨token, some waker⟩ })
      discardClaim record.claim
      return none

/-- Gives up the slot of a process if a joiner holds it. -/
def releaseSlot (target : Pid) (token : Nat) : Action Waker Unit := do
  match (← table).record? target with
  | none => pure ()
  | some record =>
    if record.claim.any (·.token = token) then
      update (·.put { record with claim := none })
      discardClaim record.claim
      note (.slotReleased target)

end Lifecycle.Table
