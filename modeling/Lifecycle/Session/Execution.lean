import Lifecycle.Session.Loading

/-!
# Performing programs

A task performs the instructions of its program one after the other. An instruction that cannot be
answered at once leaves the task with a delay, and the next run of the task begins by ending it. A
task that comes to its end lets its process exit, unless the task is a further thread or the
process has ended already.

The last part runs the tasks of the session in the order of its run queue.
-/

namespace Lifecycle.Session

/-! ## Memory and values of a process -/

/-- Reserves scratch memory, in steps of four bytes. -/
def reserve (process : Process) (length : Nat) : SessionM Nat := do
  let space ← space process.space
  setSpace process.space { space with scratch := space.scratch + (length + 3) / 4 * 4 }
  return space.scratch

def store (process : Process) (address : Nat) (bytes : Bytes) : SessionM Unit := do
  setMemory process.space ((← memory process.space).write address bytes)

/-- Puts a terminated string into scratch memory. -/
def putString (process : Process) (bytes : Bytes) : SessionM Nat := do
  let address ← reserve process (bytes.length + 1)
  store process address (bytes ++ [0])
  return address

/-- Puts strings into scratch memory and, behind them, a table of pointers to them. -/
def putTable (process : Process) (strings : List Bytes) : SessionM Nat := do
  let addresses ← strings.mapM (putString process)
  let table ← reserve process (Limits.pointerSize * strings.length)
  store process table (addresses.flatMap fun (address : Nat) ↦ Scalar.u32.encode address)
  return table

def Bindings.value (bindings : Bindings) (name : String) : Int :=
  (bindings.lookup name).getD 0

/-- Sets a variable, if one is named. -/
def Bindings.set (bindings : Bindings) (into : Option String) (value : Int) : Bindings :=
  match into with
  | some name => (name, value) :: bindings.filter (·.1 ≠ name)
  | none => bindings

def evaluate (process : Process) (bindings : Bindings) : Operand → SessionM Int
  | .literal value => return value
  | .named name => return bindings.value name
  | .string bytes => return (← putString process bytes)

/-- The strings that the argument page of a process refers to. -/
def ownArguments (process : Process) : SessionM (List Bytes) := do
  let memory ← memory process.space
  match memory.readVector .u32 process.argv process.argc with
  | .ok pointers => return (ArgumentVector.copyStrings memory (pointers.map Int.toNat)).1
  | .error _ => return []

/-- How far a process has come, if it has a record. -/
def phaseOf (pid : Pid) : SessionM (Option Phase) := do
  return ((← get).kernel.table.record? pid).map (·.phase)

/-! ## Single instructions -/

/-- What a task does after an instruction. -/
inductive Next where
  | continue (bindings : Bindings)
  | wait (delay : Delay)
  | leave (code : Int)
  | fault (fault : Fault)

/-- What the end of a run leaves of a task. -/
inductive RunEnd where
  | ended
  | suspended (delay : Delay) (bindings : Bindings) (code : Program)
  | faulted (fault : Fault)

def showPerformed (process : Process) (instruction : String) (details : List Detail) :
    SessionM Unit :=
  emit (.performed process.pid instruction details)

/-- Shows the answer of a syscall and stores it. -/
def finishSyscall (process : Process) (bindings : Bindings) (value : Int) :
    Continuation → SessionM Bindings
  | .shown instruction into => do
    showPerformed process instruction [.number value]
    return bindings.set into value
  | .shownWithWord address => do
    let word :=
      match (← memory process.space).readScalar .i32 address with
      | .ok word => Detail.number word
      | .error _ => Detail.nothing
    showPerformed process "join" [.number value, word]
    return bindings

variable (takeSteps : StepTaker)

/-- Polls a syscall of a task. -/
def pollSyscall (task : TaskId) (process : Process) (bindings : Bindings)
    (request : RequestId) (continuation : Continuation) : SessionM Next := do
  match ← pollRequest takeSteps request (.task task) (some process.space) with
  | .returned value _ =>
    return .continue (← finishSyscall process bindings value continuation)
  | .faulted fault => return .fault fault
  | _ => return .wait (.answer request continuation)

/-- Makes a syscall of a task and polls it. -/
def makeSyscall (task : TaskId) (process : Process) (bindings : Bindings)
    (kind : Nat) (words : List Int) (continuation : Continuation) : SessionM Next := do
  let call := Kernel.Syscall.ofWords process.pid kind (words.map Word.ofInt)
  let request ← openRequest (.openSyscall call)
  pollSyscall takeSteps task process bindings request continuation

def detailOfAnswer : Kernel.Answer → Detail
  | .refused cause => .refused cause
  | .faulted fault => .faulted fault
  | _ => .done

/-- Performs one instruction. -/
def performInstruction (task : TaskId) (process : Process) (bindings : Bindings) :
    Instruction → SessionM Next
  | .exec into path arguments argc => do
    let name ← putString process path.toUTF8.toList
    let table ← putTable process arguments
    let words := [(name : Int), argc.getD arguments.length, table]
    makeSyscall takeSteps task process bindings SyscallKind.exec.number words
      (.shown "exec" into)
  | .join child => do
    let child ← evaluate process bindings child
    let address ← reserve process 4
    store process address (Scalar.u32.encode 0x5a5a5a5a)
    makeSyscall takeSteps task process bindings SyscallKind.join.number [child, address]
      (.shownWithWord address)
  | .syscall number words into => do
    let words ← words.mapM (evaluate process bindings)
    makeSyscall takeSteps task process bindings number words (.shown "sys" into)
  | .exit code =>
    makeSyscall takeSteps task process bindings SyscallKind.exit.number [code]
      (.shown "exit" none)
  | .halt =>
    makeSyscall takeSteps task process bindings SyscallKind.halt.number [] (.shown "halt" none)
  | .kill victim status => do
    let victim ← evaluate process bindings victim
    let answer ← call (.terminate (Word.ofInt victim) status)
    showPerformed process "kill" [detailOfAnswer answer]
    return .continue bindings
  | .shutdown => do
    let _ ← call .shutdown
    showPerformed process "shutdown" []
    return .continue bindings
  | .phase other => do
    let other ← evaluate process bindings other
    showPerformed process "state" [.phase (← phaseOf (Word.ofInt other))]
    return .continue bindings
  | .arguments => do
    showPerformed process "args" ((← ownArguments process).map .bytes)
    return .continue bindings
  | .note label => do
    showPerformed process "note" [.label label]
    return .continue bindings
  | .yield => do
    updateQueue (·.wake task)
    return .wait (.turn "yield")
  | .park => return .wait (.turn "park")
  | .assign into value => do
    return .continue (bindings.set (some into) (← evaluate process bindings value))
  | .thread instructions => do
    spawnTask { process, isMain := false, bindings, delay := none, code := instructions }
    return .continue bindings
  | .leave code => return .leave code

/-! ## Tasks -/

/-- Ends a task. If it is the main task of a process that still runs, the process exits. -/
def leave (task : TaskId) (process : Process) (isMain : Bool) (code : Int) : SessionM RunEnd := do
  let current ← get
  if isMain ∧ current.kernel.table.IsRunning process.pid then
    let call := Kernel.Syscall.ofWords process.pid SyscallKind.exit.number [Word.ofInt code]
    let request ← openRequest (.openSyscall call)
    match ← pollRequest takeSteps request (.task task) (some process.space) with
    | .faulted fault => return .faulted fault
    | _ => return .ended
  else return .ended

/-- Performs instructions until the task ends or has to wait. -/
def performCode (task : TaskId) (process : Process) (isMain : Bool) :
    Program → Bindings → SessionM RunEnd
  | [], _ => leave takeSteps task process isMain 0
  | instruction :: rest, bindings => do
    match ← performInstruction takeSteps task process bindings instruction with
    | .continue bindings => performCode task process isMain rest bindings
    | .wait delay => return .suspended delay bindings rest
    | .leave code => leave takeSteps task process isMain code
    | .fault fault => return .faulted fault

/-- One run of a task: ends the delay it was left with and goes on from there. -/
def runTask (id : TaskId) (task : Task) : SessionM RunEnd := do
  let { process, isMain, bindings, delay, code } := task
  match delay with
  | none => performCode takeSteps id process isMain code bindings
  | some (.turn instruction) =>
    showPerformed process instruction []
    performCode takeSteps id process isMain code bindings
  | some (.answer request continuation) =>
    match ← pollSyscall takeSteps id process bindings request continuation with
    | .continue bindings => performCode takeSteps id process isMain code bindings
    | .wait delay => return .suspended delay bindings code
    | .leave code => leave takeSteps id process isMain code
    | .fault fault => return .faulted fault

/-- Forgets a task that will not run any more. -/
def finishTask (id : TaskId) : SessionM Unit :=
  modify fun session ↦
    { session with queue := session.queue.finish id, tasks := session.tasks.erase id }

/-- Throws a task away, with the request it waits for. -/
def closeTask (id : TaskId) : SessionM Unit := do
  let task := (← get).tasks[id]?
  finishTask id
  match task.bind (·.delay) with
  | some (.answer request _) => dropRequest request
  | _ => pure ()

/-- Runs a task that the queue marks as running. Answers the fault that ended it, if one did. -/
def advance (id : TaskId) : SessionM (Option Fault) := do
  match (← get).tasks[id]? with
  | none =>
    finishTask id
    return none
  | some task =>
    match ← runTask takeSteps id task with
    | .ended =>
      finishTask id
      return none
    | .faulted fault =>
      finishTask id
      return some fault
    | .suspended delay bindings code =>
      updateQueue fun queue ↦ (queue.suspend id).1
      modify fun session ↦
        { session with
          tasks := session.tasks.insert id { task with delay, bindings, code } }
      return none

/-- Runs at most `limit` tasks from the head of the queue. Answers how many there were, in addition
to those counted before, or the fault that ended one of them. -/
def runUpTo : Nat → Nat → SessionM (Except Fault Nat)
  | 0, count => return .ok count
  | limit + 1, count => do
    match (← get).queue.fetch? with
    | none => return .ok count
    | some (fetched, queue) =>
      modify ({ · with queue })
      log .taskFetched
      match fetched with
      | .toClose id =>
        closeTask id
        runUpTo limit (count + 1)
      | .toRun id =>
        match ← advance takeSteps id with
        | some fault => return .error fault
        | none => runUpTo limit (count + 1)

/-- Runs tasks until the queue is empty, a fault ends a task, or the session's limit is reached. -/
def runTasks : SessionM (Except Fault Nat) := do
  runUpTo takeSteps (← get).runLimit 0

end Lifecycle.Session
