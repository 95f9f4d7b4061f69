import Lifecycle.Kernel.Basic
import Lifecycle.Scheduling.RunQueue
import Lifecycle.Session.Event

/-!
# The state of a session

A session surrounds one kernel with what it needs to run: images to load, memories, the tasks that
perform programs, and the handles under which requests are kept between steps. The effects of a
kernel call are settled here: a notice is logged if it passes the threshold, a waker is used on
the task it belongs to or shown by its name, and an admitted process gets its memory and its task.
-/

namespace Lifecycle

namespace Session

/-- Whom a parked request wakes. -/
inductive Waker where
  | named (name : String)
  | task (task : TaskId)
  /-- A thread that is blocked until its request is answered. -/
  | blocked
  deriving DecidableEq, Repr

abbrev SpaceId := Nat

/-- The memory of a process, with the address from which scratch memory is taken. -/
structure Space where
  memory : Memory
  scratch : Nat

/-- What the tasks of a process have in common. -/
structure Process where
  pid : Pid
  space : SpaceId
  argc : Nat
  argv : Nat
  deriving DecidableEq, Repr

abbrev Bindings := List (String × Int)

/-- What a program does with the answer of a syscall. -/
inductive Continuation where
  /-- Shows it under an instruction's name and stores it in a variable. -/
  | shown (instruction : String) (into : Option String)
  /-- Shows it together with the word at an address. -/
  | shownWithWord (address : Nat)

/-- Why a task does not go on at once. -/
inductive Delay where
  /-- It gave way or parked, with an instruction of that name. -/
  | turn (instruction : String)
  /-- It waits for the answer of a syscall. -/
  | answer (request : RequestId) (continuation : Continuation)

/-- A task that has not ended. -/
structure Task where
  process : Process
  /-- Whether the process exits when the task ends. -/
  isMain : Bool
  bindings : Bindings
  delay : Option Delay
  /-- What is left to perform. -/
  code : Program

end Session

/-- A request under a name, with the memory that it is made for. -/
structure Session.Handle where
  request : RequestId
  space : Option Session.SpaceId

/-- A request of a session's script. -/
inductive Session.Operation where
  /-- Start a process under a parent, or the root; several times over if a count is given. -/
  | spawn (parent : Option Pid) (path : String) (arguments : List Bytes) (times : Option Nat)
  | terminate (pid : Pid) (status : ExitStatus)
  | shutdown
  /-- Open a wait under a name; poll it unless it is lazy. -/
  | join (handle waker : String) (caller target : Pid) (isLazy : Bool)
  /-- Open a syscall under a name, for a space, and poll it. -/
  | syscall (handle waker space : String) (call : Kernel.Syscall)
  | poll (handle waker : String)
  | drop (handle : String)
  /-- Wait for a child without ever giving way. -/
  | blockOn (caller target : Pid)
  /-- Run tasks until none is left in the queue. -/
  | run
  | query (pid : Pid)
  | table
  | peek (space : String) (address length : Nat)
  | poke (space : String) (address : Nat) (bytes : Bytes)
  /-- Start, end and collect a child over and over. -/
  | churn (parent : Pid) (path : String) (rounds : Nat) (toleratesFailure : Bool)
  | other

/-- An executable image. -/
structure Session.Image where
  layout : Session.Layout
  /-- Steps that are taken while the image is loaded for the first time. -/
  during : Option (List Session.Operation)
  program : Option Session.Program

structure Session where
  kernel : Kernel Session.Waker
  images : List (String × Session.Image)
  /-- Images whose steps were taken already. -/
  visited : List String
  spaces : Std.ExtTreeMap Session.SpaceId Session.Space
  spaceNames : List (String × Session.SpaceId)
  nextSpace : Session.SpaceId
  handles : List (String × Session.Handle)
  queue : RunQueue
  tasks : Std.ExtTreeMap TaskId Session.Task
  threshold : Log.Threshold
  /-- Whether steps show only the size of the table. -/
  isBrief : Bool
  /-- Whether nothing is shown at the moment. -/
  isQuiet : Bool
  /-- How many tasks one run may take from the queue. -/
  runLimit : Nat
  /-- The events of the step under way, in order. -/
  events : Array Session.Event

namespace Session

abbrev SessionM := StateM Session

/-! ## Events -/

def emit (event : Event) : SessionM Unit :=
  modify fun session ↦
    if session.isQuiet then session else { session with events := session.events.push event }

def log (notice : Notice) : SessionM Unit := do
  if notice.passes (← get).threshold then emit (.logged notice)

/-- The number of records in the table. -/
def tableSize : SessionM Nat := do
  return (← get).kernel.table.size

/-- Does something without showing anything of it. -/
def quietly {α : Type} (action : SessionM α) : SessionM α := do
  let before := (← get).isQuiet
  modify ({ · with isQuiet := true })
  let value ← action
  modify ({ · with isQuiet := before })
  return value

/-! ## Spaces -/

def addSpace (space : Space) : SessionM SpaceId := do
  let id := (← get).nextSpace
  modify fun session ↦
    { session with spaces := session.spaces.insert id space, nextSpace := id + 1 }
  return id

/-- Names a space, in place of one that had the name before. -/
def nameSpace (name : String) (space : SpaceId) : SessionM Unit :=
  modify fun session ↦
    { session with
      spaceNames := (name, space) :: session.spaceNames.filter (·.1 ≠ name) }

def spaceNamed? (name : String) : SessionM (Option SpaceId) := do
  return (← get).spaceNames.lookup name

def space (id : SpaceId) : SessionM Space := do
  return (← get).spaces.getD id ⟨.unmapped, 0⟩

def setSpace (id : SpaceId) (space : Space) : SessionM Unit :=
  modify fun session ↦ { session with spaces := session.spaces.insert id space }

def memory (id : SpaceId) : SessionM Memory := do
  return (← space id).memory

def setMemory (id : SpaceId) (memory : Memory) : SessionM Unit := do
  setSpace id { ← space id with memory }

/-! ## Tasks -/

def updateQueue (change : RunQueue → RunQueue) : SessionM Unit :=
  modify fun session ↦ { session with queue := change session.queue }

def spawnTask (task : Task) : SessionM Unit :=
  modify fun session ↦
    let (id, queue) := session.queue.spawn
    { session with queue, tasks := session.tasks.insert id task }

/-- Makes a process of an image with a program run, and gives its memory a name. While nothing is
shown the memory gets no name. -/
def admitProcess (pid : Pid) (path : String) (entry : Entry) : SessionM Unit := do
  let session ← get
  let image := session.images.lookup path
  let program := image.bind (·.program)
  if session.isQuiet ∧ program.isNone then return
  let low := (image.map (·.layout.low)).getD 0
  let space ← addSpace ⟨entry.memory, low⟩
  unless session.isQuiet do nameSpace s!"p{pid}" space
  match program with
  | none => pure ()
  | some code =>
    spawnTask
      { process := ⟨pid, space, entry.argc, entry.argv⟩
        isMain := true
        bindings := []
        delay := none
        code }

/-! ## Kernel calls -/

/-- Brings one effect of a kernel call about. -/
def settle : Effect Waker → SessionM Unit
  | .note notice => log notice
  | .wake (.named name) size => emit (.woken name size)
  | .wake (.task task) _ => updateQueue (·.wake task)
  | .wake .blocked _ => log .blockedWoken
  | .discard (.task task) => updateQueue (·.forsake task)
  | .discard _ => pure ()
  | .admitted pid path entry size => do
    emit (.admitted pid entry size)
    admitProcess pid path entry
  | .halt size => emit (.halt size)
  | .stop size => emit (.stop size)

/-- Makes a kernel call and settles its effects in order. -/
def call (request : Kernel.Call Waker) : SessionM Kernel.Answer := do
  let reply := (← get).kernel.perform request
  modify ({ · with kernel := reply.kernel })
  reply.effects.forM settle
  return reply.answer

/-! ## Steps -/

/-- What is shown of the table now. -/
def view : SessionM StateView := do
  let session ← get
  let table := session.kernel.table
  if session.isBrief then return .brief table.root table.running table.size
  else return .full (.ofTable table)

/-- Takes a step and reports it, with the events of its own. -/
def report (action : SessionM Result) : SessionM (Step Event) := do
  let outer := (← get).events
  modify ({ · with events := #[] })
  let result ← action
  let events := (← get).events.toList
  modify ({ · with events := outer })
  return ⟨result, ← view, events⟩

end Session

end Lifecycle
