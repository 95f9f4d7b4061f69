import Lifecycle.Session.Execution

/-!
# Scripts

A script is a list of operations on one session. Each is a step: it is carried out and reported.
A step that starts a process may take the steps of an image on the way, and these may start further
processes; since every image takes its steps once, the number of images bounds how deep this goes.
-/

namespace Lifecycle.Session

/-! ## Handles -/

def handle? (name : String) : SessionM (Option Handle) := do
  return (← get).handles.lookup name

def removeHandle (name : String) : SessionM Unit :=
  modify fun session ↦ { session with handles := session.handles.filter (·.1 ≠ name) }

def putHandle (name : String) (handle : Handle) : SessionM Unit := do
  removeHandle name
  modify fun session ↦ { session with handles := (name, handle) :: session.handles }

variable (takeSteps : StepTaker)

/-- Polls the request of a handle. The handle is out of reach meanwhile; it is put back unless its
request is over. -/
def pollHandle (name waker : String) (handle : Handle) : SessionM Result := do
  removeHandle name
  let answer ← pollRequest takeSteps handle.request (.named waker) handle.space
  match answer with
  | .pending | .collected _ | .refused _ => putHandle name handle
  | _ => pure ()
  return .ofAnswer answer

/-! ## Single operations -/

/-- Starts a process. -/
def spawnProcess (parent : Option Pid) (path : String) (arguments : List Bytes) :
    SessionM Result := do
  let vector := ArgumentVector.ofStrings arguments
  vector.notices.forM log
  match vector.value with
  | .error cause => return .argumentsRefused cause
  | .ok vector => return .ofAnswer (← callLoading takeSteps (.spawn parent path vector))

/-- The fault that a result stands for. -/
def Result.fault? : Result → Option Fault
  | .faulted fault => some fault
  | _ => none

/-- Starts a process several times over. A fault ends it early and is the only result. -/
def spawnSeveral (parent : Option Pid) (path : String) (arguments : List Bytes) :
    Nat → List Result → SessionM Result
  | 0, results => return .several results.reverse
  | times + 1, results => do
    let result ← spawnProcess takeSteps parent path arguments
    match result.fault? with
    | some _ => return result
    | none => spawnSeveral parent path arguments times (result :: results)

/-- A running child of a process that nobody waits for. -/
def isFreeChild (caller target : Pid) : SessionM Bool := do
  match (← get).kernel.table.record? target with
  | none => return false
  | some record =>
    return record.parent = some caller ∧ record.IsRunning ∧ record.claim.isNone

/-- Starts a child, ends it and collects it, once for every round that is left. -/
def churnRounds (parent : Pid) (path : String) (toleratesFailure : Bool) :
    Nat → Nat → LastRound → SessionM Result
  | 0, _, last => return .churned last
  | left + 1, round, _ => do
    match ← callLoading takeSteps (.spawn (some parent) path .empty) with
    | .refused cause =>
      if toleratesFailure then
        churnRounds parent path toleratesFailure left (round + 1) (.failed cause)
      else return .churnStopped round cause
    | .spawned pid =>
      match ← call (.terminate pid (.exited (Int32.ofNat round))) with
      | .refused cause => return .churnStopped round cause
      | .faulted fault => return .faulted fault
      | _ =>
        match ← blockOnJoin takeSteps parent pid with
        | .collected status =>
          churnRounds parent path toleratesFailure left (round + 1) (.collected pid status)
        | .refused cause => return .churnStopped round cause
        | answer => return .ofAnswer answer
    | answer => return .ofAnswer answer

/-- Carries out one operation. -/
def apply : Operation → SessionM Result
  | .spawn parent path arguments none => spawnProcess takeSteps parent path arguments
  | .spawn parent path arguments (some times) =>
    quietly (spawnSeveral takeSteps parent path arguments times [])
  | .terminate pid status => return .ofAnswer (← call (.terminate pid status))
  | .shutdown => return .ofAnswer (← call .shutdown)
  | .join name waker caller target isLazy => do
    if (← handle? name).isSome then return .handleInUse
    let request ← openRequest (.openJoin caller target)
    if isLazy then
      putHandle name ⟨request, none⟩
      return .done
    else pollHandle takeSteps name waker ⟨request, none⟩
  | .syscall name waker space request => do
    if (← handle? name).isSome then return .handleInUse
    match ← spaceNamed? space with
    | none => return .noSpace
    | some space =>
      let request ← openRequest (.openSyscall request)
      pollHandle takeSteps name waker ⟨request, some space⟩
  | .poll name waker => do
    match ← handle? name with
    | none => return .noHandle
    | some handle => pollHandle takeSteps name waker handle
  | .drop name => do
    match ← handle? name with
    | none => return .noHandle
    | some handle =>
      removeHandle name
      dropRequest handle.request
      return .done
  | .blockOn caller target => do
    if ← isFreeChild caller target then return .wouldBlock
    return .ofAnswer (← blockOnJoin takeSteps caller target)
  | .run => do
    match ← runTasks takeSteps with
    | .ok count => return .ran count
    | .error fault => return .faulted fault
  | .query pid => do
    let table := (← get).kernel.table
    return .query ⟨(table.record? pid).map .ofRecord, table.size = 0⟩
  | .table => return .table (.ofTable (← get).kernel.table)
  | .peek space address length => do
    match ← spaceNamed? space with
    | none => return .noSpace
    | some space => return .bytes ((← memory space).read address length)
  | .poke space address bytes => do
    match ← spaceNamed? space with
    | none => return .noSpace
    | some space =>
      let memory ← memory space
      setMemory space (memory.write address bytes)
      return .stored (memory.span address bytes.length)
  | .churn parent path rounds toleratesFailure =>
    quietly (churnRounds takeSteps parent path toleratesFailure rounds 0 .none)
  | .other => return .unknown

/-! ## Whole scripts -/

/-- Takes steps with loads nested at most `depth` deep. -/
def takeStepsWithin : Nat → StepTaker
  | 0, _ => return []
  | depth + 1, operations =>
    operations.mapM fun operation ↦ report (apply (takeStepsWithin depth) operation)

/-- What a session starts from. -/
structure Setup where
  images : List (String × Image) := []
  memories : List (String × Memory) := []
  threshold : Log.Threshold := none
  isBrief : Bool := false
  /-- How many tasks one run may take from the queue. It ends runs of programs that start each
  other for ever; all other runs stay far below the default. -/
  runLimit : Nat := 10 ^ 9

/-- A session in which nothing has happened. -/
def Setup.session (setup : Setup) : Session :=
  { kernel := .initial
    images := setup.images
    visited := []
    spaces := ∅
    spaceNames := []
    nextSpace := 0
    handles := []
    queue := .empty
    tasks := ∅
    threshold := setup.threshold
    isBrief := setup.isBrief
    isQuiet := false
    runLimit := setup.runLimit
    events := #[] }

/-- What a whole session reports. -/
structure Transcript where
  /-- What was logged when the subsystem started. -/
  boot : List Event
  steps : List (Step Event)

/-- Starts the subsystem, with its log turned on, and names the memories that are given. -/
def boot (memories : List (String × Memory)) : SessionM (List Event) := do
  log .logEnabled
  log .subsystemUp
  let events := (← get).events.toList
  modify ({ · with events := #[] })
  memories.forM fun named ↦ do nameSpace named.1 (← addSpace ⟨named.2, 0⟩)
  return events

/-- Runs a script. -/
def Setup.run (setup : Setup) (script : List Operation) : Transcript :=
  let whole : SessionM Transcript := do
    let boot ← boot setup.memories
    return ⟨boot, ← takeStepsWithin (setup.images.length + 1) script⟩
  (whole.run setup.session).1

end Lifecycle.Session
