import Lifecycle.Table.Joining

/-!
# Waiting for a child, poll by poll

A wait is a joiner that is polled until it has an answer. While it is parked its token holds the
slot of its target, and abandoning it gives the slot up.
-/

namespace Lifecycle.Kernel

variable {Waker : Type}

open Lifecycle.Action

structure Wait where
  caller : Pid
  target : Pid
  token : Nat
  /-- Whether the last poll left the wait parked. -/
  parked : Bool
  deriving DecidableEq, Repr

namespace Wait

/-- Abandons a wait. -/
def abandon (wait : Wait) : Action Waker Unit :=
  if wait.parked then Table.releaseSlot wait.target wait.token else pure ()

/-- One attempt to collect the target's status: the outcome, or nothing if the wait is parked. A
wait whose attempt fails on a fault is abandoned. -/
def poll (wait : Wait) (waker : Waker) : Action Waker (Option (Except Errno ExitStatus)) := do
  let attempted := attempt (Table.join wait.caller wait.target wait.token waker)
  match ← attempted.onFailure wait.abandon with
  | .ok none =>
    unless wait.parked do note (.joinParked wait.caller wait.target)
    return none
  | .ok (some status) =>
    note (.joined wait.caller wait.target status)
    return some (.ok status)
  | .error cause =>
    note (.joinRefused wait.caller wait.target cause)
    return some (.error cause)

/-- The wait after a poll. -/
def after (wait : Wait) (outcome : Option (Except Errno ExitStatus)) : Wait :=
  { wait with parked := outcome.isNone }

end Wait

end Lifecycle.Kernel
