import Lifecycle.Log.Notice
import Lifecycle.Session.Program
import Lifecycle.Table.Basic

/-!
# What a session reports

A session answers every step with a result, with the state of the process table after it, and with
the events that were watched on the way. A load may have steps of its own, and these are reported
inside the event that stands for them.
-/

namespace Lifecycle.Session

/-- What is shown of one record. -/
structure RecordView where
  pid : Pid
  name : String
  parent : Option Pid
  phase : Phase
  children : List Pid
  claimed : Bool
  deriving DecidableEq, Repr

/-- What is shown of the table. -/
structure TableView where
  root : Option Pid
  running : Nat
  records : List RecordView
  deriving DecidableEq, Repr

/-- What is shown of the table after a step: all of it, or the number of records only. -/
inductive StateView where
  | full (table : TableView)
  | brief (root : Option Pid) (running : Nat) (size : Nat)
  deriving DecidableEq, Repr

/-- The record of a process, if it has one, and whether the table is empty. -/
structure QueryView where
  record : Option RecordView
  isEmpty : Bool
  deriving DecidableEq, Repr

def RecordView.ofRecord {Waker : Type} (record : Record Waker) : RecordView :=
  { pid := record.pid
    name := record.name
    parent := record.parent
    phase := record.phase
    children := record.children.toList
    claimed := record.claim.isSome }

def TableView.ofTable {Waker : Type} (table : Table Waker) : TableView :=
  { root := table.root
    running := table.running
    records := table.recordList.map .ofRecord }

/-- How the last round of a churn ended. -/
inductive LastRound where
  | none
  | failed (cause : Errno)
  | collected (pid : Pid) (status : ExitStatus)
  deriving DecidableEq, Repr

inductive Result where
  | done
  | spawned (pid : Pid)
  | refused (cause : Errno)
  /-- The arguments of a new process were refused. -/
  | argumentsRefused (cause : Errno)
  /-- The results of the same thing done several times. -/
  | several (results : List Result)
  | pending
  | collected (status : ExitStatus)
  | returned (value : Int)
  | handleInUse
  | noHandle
  | noSpace
  | wouldBlock
  | ran (count : Nat)
  | bytes (bytes : Bytes)
  | stored (count : Nat)
  | query (view : QueryView)
  | table (view : TableView)
  | churned (last : LastRound)
  /-- A churn ended early. -/
  | churnStopped (round : Nat) (cause : Errno)
  | faulted (fault : Fault)
  | unknown
  deriving Inhabited

/-- What an instruction shows beside its name. -/
inductive Detail where
  | number (value : Int)
  | nothing
  | done
  | refused (cause : Errno)
  | faulted (fault : Fault)
  | phase (phase : Option Phase)
  | bytes (bytes : Bytes)
  | label (label : Label)

/-- A step of a session, with events of a given type. -/
structure Step (Event : Type) where
  result : Result
  state : StateView
  events : List Event

inductive Event where
  | load (path : String) (arguments : List Bytes) (size : Nat)
  | admitted (pid : Pid) (entry : Entry) (size : Nat)
  | halt (size : Nat)
  | stop (size : Nat)
  | woken (waker : String) (size : Nat)
  /-- The steps that were taken during a load. -/
  | during (steps : List (Step Event))
  /-- What an instruction of a process showed. -/
  | performed (pid : Pid) (instruction : String) (details : List Detail)
  | logged (notice : Notice)

end Lifecycle.Session
