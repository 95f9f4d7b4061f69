import Lifecycle.Arguments
import Lifecycle.Table.Insertion

/-!
# Starting processes

A process is started in two parts, with the loader at work in between: first it gets a record and
an id, then, when the image is loaded, it is admitted, or its record is taken back if the load
failed. Anything may happen to the table between the two.
-/

namespace Lifecycle.Kernel

variable {Waker : Type}

open Lifecycle.Action

/-- A process whose image is being loaded. -/
structure Load where
  pid : Pid
  /-- None for the root. -/
  parent : Option Pid
  path : String
  arguments : ArgumentVector
  /-- Whether the process is started by an EXEC syscall. -/
  bySyscall : Bool
  deriving DecidableEq, Repr

/-- Takes a process in so that its image can be loaded. -/
def beginLoad (parent : Option Pid) (path : String) (arguments : ArgumentVector)
    (bySyscall : Bool) : Action Waker Load := do
  if path.isEmpty then refuse .ENOENT
  let pid ← Table.insert parent path
  return { pid, parent, path, arguments, bySyscall }

/-- Admits the process if its image was loaded, and takes its record back if not. -/
def endLoad (load : Load) (outcome : Except LoadFailure Entry) : Action Waker Pid := do
  match outcome with
  | .ok entry =>
    note (.started load.path load.pid load.parent load.arguments.argc)
    emit (.admitted load.pid load.path entry (← table).size)
    return load.pid
  | .error cause =>
    note (.loadFailed load.path cause)
    let stray ← Table.withdraw load.pid
    stray.toList.forM wake
    refuse cause.toErrno

end Lifecycle.Kernel
