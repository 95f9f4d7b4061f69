import Lifecycle.Kernel.Syscall
import Lifecycle.Kernel.Waiting

/-!
# The kernel, call by call

The kernel is driven by calls, one at a time. Beside the process table it keeps the requests that
are under way (waits and syscalls, which are polled until they answer) and the loads in progress,
the innermost first: a call that needs an image is answered with `Answer.loading`, further calls
may come while the loader works, and `Call.finishLoad` ends the innermost load.

Every call gets an answer and the effects it had, in order. A call that stops on a fault keeps the
changes it had made.
-/

namespace Lifecycle

abbrev RequestId := Nat

namespace Kernel

/-- Something that is polled until it answers. -/
inductive Request where
  | join (wait : Wait)
  /-- A syscall that has not begun. -/
  | syscall (call : Syscall)
  /-- A JOIN syscall that waits for a child, to write its code to an address. -/
  | collecting (wait : Wait) (statusAddress : Nat)
  deriving DecidableEq, Repr

inductive Call (Waker : Type) where
  /-- Start a process under a parent, or the root if there is no parent. -/
  | spawn (parent : Option Pid) (path : String) (arguments : ArgumentVector)
  /-- End the innermost load. -/
  | finishLoad (outcome : Except LoadFailure Entry)
  | terminate (pid : Pid) (status : ExitStatus)
  | shutdown
  /-- Open a wait of a process for a child. -/
  | openJoin (caller target : Pid)
  | openSyscall (call : Syscall)
  /-- Poll a request with a waker and the memory of the process it is made for. -/
  | poll (request : RequestId) (waker : Waker) (memory : Memory)
  /-- Drop a request. -/
  | abandon (request : RequestId)

inductive Answer where
  | done
  | opened (request : RequestId)
  | spawned (pid : Pid)
  /-- The image of a new process is to be loaded. -/
  | loading (path : String) (arguments : ArgumentVector)
  /-- The request is parked. -/
  | pending
  /-- A wait collected a status. -/
  | collected (status : ExitStatus)
  /-- A syscall returned; its caller's memory, if it was written. -/
  | returned (value : Int) (written : Option Memory)
  | refused (cause : Errno)
  | faulted (fault : Fault)
  /-- There is no such request or load. -/
  | absent

end Kernel

structure Kernel (Waker : Type) where
  table : Table Waker
  requests : Std.ExtTreeMap RequestId Kernel.Request
  /-- The id of the next request. A wait uses it as its token. -/
  nextRequest : RequestId
  /-- The loads in progress, the innermost first. -/
  loads : List Kernel.Load

namespace Kernel

variable {Waker : Type}

def initial : Kernel Waker := ⟨.empty, ∅, 0, []⟩

/-- What a call leads to. -/
structure Reply (Waker : Type) where
  kernel : Kernel Waker
  effects : List (Effect Waker)
  answer : Answer

def Answer.ofFailure : Failure → Answer
  | .refused cause => .refused cause
  | .fault cause => .faulted cause

/-- Carries out an action on the table; `settle` turns its value into the kernel's next state and
the answer, `unsettle` makes the next state if the action fails. -/
def act {α : Type} (kernel : Kernel Waker) (action : Action Waker α)
    (settle : Kernel Waker → α → Kernel Waker × Answer)
    (unsettle : Kernel Waker → Kernel Waker) : Reply Waker :=
  match action.run ⟨kernel.table, []⟩ with
  | .done value scene =>
    let (kernel, answer) := settle { kernel with table := scene.table } value
    ⟨kernel, scene.effects, answer⟩
  | .failed failure scene =>
    ⟨unsettle { kernel with table := scene.table }, scene.effects, .ofFailure failure⟩

/-- Keeps a request, in place of what it was before. -/
def keep (kernel : Kernel Waker) (request : RequestId) (now : Request) : Kernel Waker :=
  { kernel with requests := kernel.requests.insert request now }

def forget (kernel : Kernel Waker) (request : RequestId) : Kernel Waker :=
  { kernel with requests := kernel.requests.erase request }

/-- Puts a load on top of those in progress. -/
def pushLoad (kernel : Kernel Waker) (load : Load) : Kernel Waker × Answer :=
  ({ kernel with loads := load :: kernel.loads }, .loading load.path load.arguments)

/-- Opens a request. -/
def openRequest (kernel : Kernel Waker) (request : Request) : Reply Waker :=
  ⟨{ kernel.keep kernel.nextRequest request with nextRequest := kernel.nextRequest + 1 }, [],
    .opened kernel.nextRequest⟩

/-! ## Polling -/

/-- How far a poll has brought a syscall. -/
inductive Progress where
  /-- It waits for a child. -/
  | waiting (wait : Wait) (statusAddress : Nat)
  | returned (value : Int) (written : Option Memory)
  | loading (load : Load)

/-- Polls the wait of a JOIN syscall. -/
def pollCollecting (wait : Wait) (statusAddress : Nat) (waker : Waker) (memory : Memory) :
    Action Waker Progress := do
  let outcome ← wait.poll waker
  match outcome with
  | none => return .waiting (wait.after outcome) statusAddress
  | some result =>
    let (value, written) ← Syscall.answerJoin memory statusAddress result
    return .returned value written

/-- Begins a syscall; if it is a JOIN, `token` identifies its wait. -/
def pollSyscall (call : Syscall) (token : Nat) (waker : Waker) (memory : Memory) :
    Action Waker Progress := do
  match ← call.start memory with
  | .returned value => return .returned value none
  | .loading load => return .loading load
  | .joining target statusAddress =>
    pollCollecting ⟨call.caller, target, token, false⟩ statusAddress waker memory

/-- The kernel after a poll of a syscall. A syscall that loads an image is over for the request;
the load answers for it. -/
def settleSyscall (request : RequestId) (kernel : Kernel Waker) : Progress → Kernel Waker × Answer
  | .waiting wait statusAddress => (kernel.keep request (.collecting wait statusAddress), .pending)
  | .returned value written => (kernel.forget request, .returned value written)
  | .loading load => (kernel.forget request).pushLoad load

/-- The kernel after a poll of a wait, which stays open whatever came of it. -/
def settleJoin (request : RequestId) (wait : Wait) (kernel : Kernel Waker)
    (outcome : Option (Except Errno ExitStatus)) : Kernel Waker × Answer :=
  (kernel.keep request (.join (wait.after outcome)),
    match outcome with
    | none => .pending
    | some (.ok status) => .collected status
    | some (.error cause) => .refused cause)

def poll (kernel : Kernel Waker) (request : RequestId) (waker : Waker) (memory : Memory) :
    Reply Waker :=
  match kernel.requests[request]? with
  | none => ⟨kernel, [], .absent⟩
  | some (.join wait) =>
    kernel.act (wait.poll waker) (settleJoin request wait) (·.forget request)
  | some (.syscall call) =>
    kernel.act (pollSyscall call request waker memory) (settleSyscall request) (·.forget request)
  | some (.collecting wait statusAddress) =>
    kernel.act (pollCollecting wait statusAddress waker memory) (settleSyscall request)
      (·.forget request)

/-- Drops a request. A parked wait gives its slot up. -/
def abandon (kernel : Kernel Waker) (request : RequestId) : Reply Waker :=
  match kernel.requests[request]? with
  | none => ⟨kernel, [], .absent⟩
  | some (.syscall _) => ⟨kernel.forget request, [], .done⟩
  | some (.join wait) | some (.collecting wait _) =>
    kernel.act wait.abandon (fun kernel _ ↦ (kernel.forget request, .done)) (·.forget request)

/-! ## Calls -/

/-- Ends the innermost load. -/
def finishLoad (kernel : Kernel Waker) (outcome : Except LoadFailure Entry) : Reply Waker :=
  match kernel.loads with
  | [] => ⟨kernel, [], .absent⟩
  | load :: loads =>
    let kernel := { kernel with loads }
    if load.bySyscall then
      kernel.act (Syscall.answerExec load outcome)
        (fun kernel value ↦ (kernel, .returned value none)) id
    else kernel.act (endLoad load outcome) (fun kernel pid ↦ (kernel, .spawned pid)) id

/-- Carries out one call. -/
def perform (kernel : Kernel Waker) : Call Waker → Reply Waker
  | .spawn parent path arguments =>
    kernel.act (beginLoad parent path arguments false) pushLoad id
  | .finishLoad outcome => kernel.finishLoad outcome
  | .terminate pid status =>
    kernel.act (terminate pid status) (fun kernel _ ↦ (kernel, .done)) id
  | .shutdown => kernel.act shutdown (fun kernel _ ↦ (kernel, .done)) id
  | .openJoin caller target =>
    kernel.openRequest (.join ⟨caller, target, kernel.nextRequest, false⟩)
  | .openSyscall call => kernel.openRequest (.syscall call)
  | .poll request waker memory => kernel.poll request waker memory
  | .abandon request => kernel.abandon request

end Kernel

end Lifecycle
