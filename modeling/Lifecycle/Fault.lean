import Lifecycle.Errno

/-!
# Faults

A fault stops an operation half-way because an invariant of the subsystem is broken; whatever was
changed before it stays changed. A refusal, in contrast, is an ordinary answer. `Failure` is
either of the two.
-/

namespace Lifecycle

/-- A broken invariant, named by where it was noticed. -/
inductive Fault where
  /-- An exited process was terminated again. -/
  | terminatedTwice (pid : Nat)
  /-- A record that another one links to does not exist. -/
  | missingRecord (pid : Nat)
  /-- A process was to be reaped before it exited. -/
  | reapedRunning (pid : Nat)
  /-- A process was to be reaped while a joiner was parked on it. -/
  | reapedParked (pid : Nat)
  /-- A record was to be removed while it still had children. -/
  | childrenRemain
  /-- A fresh process id already had a record. -/
  | pidInUse
  /-- A count fell below zero. -/
  | countBelowZero
  /-- An id was freed that the pool has not reached yet. -/
  | neverAllocated (id : Nat)
  /-- An id was freed that is free already. -/
  | freedTwice (id : Nat)
  /-- A pool was to be made over an empty range. -/
  | emptyRange
  /-- A buffer length ran over the machine word. -/
  | lengthOverflow
  /-- A buffer was to be larger than any buffer can be. -/
  | bufferTooLarge
  deriving DecidableEq, Repr

/-- The text a fault is reported with. -/
def Fault.message : Fault → String
  | .terminatedTwice pid => s!"process {pid} terminated twice"
  | .missingRecord pid => s!"process table corrupted: no record for pid {pid}"
  | .reapedRunning pid => s!"reclaiming running process {pid}"
  | .reapedParked pid => s!"reclaiming process {pid} with a parked joiner"
  | .childrenRemain => "assertion failed: record.children().is_empty()"
  | .pidInUse => "assertion failed: !self.records.contains_key(&pid)"
  | .countBelowZero => "attempt to subtract with overflow"
  | .neverAllocated id => s!"id {id} was never allocated"
  | .freedTwice id => s!"id {id} freed twice"
  | .emptyRange => "assertion failed: from < to"
  | .lengthOverflow => "attempt to add with overflow"
  | .bufferTooLarge => "capacity overflow"

/-- Why an operation did not come to its regular end. -/
inductive Failure where
  | refused (cause : Errno)
  | fault (cause : Fault)
  deriving DecidableEq, Repr

end Lifecycle
