import Lifecycle.Kernel.Ending
import Lifecycle.Kernel.Loading

/-!
# Syscalls

A syscall is a number and four words that a process hands over. HALT and EXIT are answered at
once; EXEC is answered when the image is loaded, and JOIN when the child has exited. A process
that makes an unknown syscall is killed, and one that does not run any more is refused.
-/

namespace Lifecycle.Kernel

variable {Waker : Type}

open Lifecycle.Action

structure Syscall where
  caller : Pid
  number : Nat
  words : Vector Nat 4
  deriving DecidableEq, Repr

namespace Syscall

/-- The answer of an EXEC that started nothing. -/
def execFailed : Int := -1

/-- The answer of a JOIN whose child exited with a code. -/
def joinNormal : Int := 1

/-- The answer of a JOIN whose child was killed. -/
def joinAbnormal : Int := 0

/-- The answer of a JOIN that has no such child, or that could not write the status. -/
def joinNotChild : Int := -1

/-- The answer of a JOIN whose child is waited for already. -/
def joinAlreadyJoined : Int := -2

/-- A syscall with the first four of some words; missing ones are zero. -/
def ofWords (caller : Pid) (number : Nat) (words : List Nat) : Syscall :=
  ⟨caller, number, Vector.ofFn fun index : Fin 4 ↦ words.getD index 0⟩

/-- What the first step of a syscall leads to. -/
inductive Started where
  | returned (value : Int)
  /-- Wait for a child and write its code to an address. -/
  | joining (target : Pid) (statusAddress : Nat)
  /-- Load the image of a new process. -/
  | loading (load : Load)

/-- The executable name that user memory holds at an address. -/
def readPath (memory : Memory) (address : Nat) : Except Errno String :=
  match memory.readText address Limits.maxArgumentLength with
  | .error cause => .error cause
  | .ok bytes =>
    match String.fromUTF8? ⟨bytes.toArray⟩ with
    | some path => .ok path
    | none => .error .EINVAL

/-- Goes on with a value or is refused. -/
def liftResult {α : Type} : Except Errno α → Action Waker α
  | .ok value => pure value
  | .error cause => refuse cause

/-- Powers the machine off if the root asks for it. -/
def halt (caller : Pid) : Action Waker Unit := do
  let current ← table
  if current.root = some caller then
    note (.halting caller)
    emit (.halt current.size)
  else note (.haltIgnored caller)

def exit (caller : Pid) (code : Int32) : Action Waker Unit := do
  note (.exiting caller code)
  terminate caller (.exited code)

/-- Takes in a child of the caller, with the name and the arguments that user memory holds. -/
def exec (caller : Pid) (memory : Memory) (name : Nat) (argc : Int32) (argv : Nat) :
    Action Waker Load := do
  if argc < 0 then refuse .EINVAL
  let path ← liftResult (readPath memory name)
  let copied := ArgumentVector.ofMemory memory argc argv
  noteAll copied.notices
  let arguments ← liftResult copied.value
  note (.executing caller path argc)
  beginLoad (some caller) path arguments true

/-- Kills a process. -/
def kill (caller : Pid) : Action Waker Unit := do
  match ← attempt (terminate caller .killed) with
  | .ok () => pure ()
  | .error cause => note (.killRefused caller cause)

/-- The first step of a syscall, with the caller's memory at that moment. -/
def start (call : Syscall) (memory : Memory) : Action Waker Started := do
  let caller := call.caller
  if ¬ (← table).IsRunning caller then
    note (.syscallOfStopped caller call.number)
    return .returned Errno.ESRCH.negated
  match SyscallKind.ofNumber? call.number with
  | none =>
    note (.syscallUnknown caller call.number)
    kill caller
    return .returned Errno.ENOSYS.negated
  | some kind =>
    note (.syscallMade caller kind call.words.toList)
    match kind with
    | .halt =>
      halt caller
      return .returned 0
    | .exit =>
      match ← attempt (exit caller (Word.lowCode call.words[0])) with
      | .ok () => return .returned 0
      | .error cause => return .returned cause.negated
    | .exec =>
      let argc := Word.lowCode call.words[1]
      match ← attempt (exec caller memory call.words[0] argc call.words[2]) with
      | .ok load => return .loading load
      | .error cause =>
        note (.syscallFailed .exec cause)
        return .returned execFailed
    | .join =>
      match Pid.ofUser? (Word.lowCode call.words[0]) with
      | some target => return .joining target call.words[1]
      | none =>
        note (.syscallFailed .join .ECHILD)
        return .returned joinNotChild

/-- The answer of a JOIN whose wait is over, and the caller's memory if it was written. A null
status address discards the code. -/
def answerJoin (memory : Memory) (statusAddress : Nat) :
    Except Errno ExitStatus → Action Waker (Int × Option Memory)
  | .ok .killed => return (joinAbnormal, none)
  | .ok (.exited code) => do
    if statusAddress = 0 then return (joinNormal, none)
    match memory.writeScalar .i32 statusAddress code.toInt with
    | (written, .ok ()) => return (joinNormal, some written)
    | (written, .error cause) =>
      note (.syscallFailed .join cause)
      return (joinNotChild, some written)
  | .error .EBUSY => return (joinAlreadyJoined, none)
  | .error cause => do
    note (.syscallFailed .join cause)
    return (joinNotChild, none)

/-- The answer of an EXEC whose load has ended. -/
def answerExec (load : Load) (outcome : Except LoadFailure Entry) : Action Waker Int := do
  match ← attempt (endLoad load outcome) with
  | .ok pid => return pid
  | .error cause =>
    note (.syscallFailed .exec cause)
    return execFailed

end Syscall

end Lifecycle.Kernel
