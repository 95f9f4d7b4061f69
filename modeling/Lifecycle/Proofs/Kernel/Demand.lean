import Lifecycle.Kernel.Basic
import Lifecycle.Proofs.Kernel.Ending
import Lifecycle.Proofs.Table.Insertion
import Lifecycle.Proofs.Table.Joining

/-!
# What a call asks of the table

Whatever a call is about, it makes one demand on the process table at most. `Change` lists what
comes of each demand. A call that stops on a fault made a `Blunder`, and there are only two: to
end a process that has ended, and to withdraw one that meanwhile got children. In both cases the
count of running processes may also have come to be wrong.
-/

namespace Lifecycle.Kernel

variable {Waker : Type}

inductive Demand (Waker : Type) where
  | nothing
  /-- Take a process in under a parent, or as the root. -/
  | start (parent : Option Pid)
  /-- End the innermost load. -/
  | settle (load : Load) (outcome : Except LoadFailure Entry)
  | finish (pid : Pid) (status : ExitStatus)
  /-- Drop all records. -/
  | clear
  | join (wait : Wait) (waker : Waker)
  /-- Give up a wait. -/
  | leave (wait : Wait)

namespace Syscall

def firstWord (call : Syscall) : Nat := call.words.toList.getD 0 0

def secondWord (call : Syscall) : Nat := call.words.toList.getD 1 0

def thirdWord (call : Syscall) : Nat := call.words.toList.getD 2 0

theorem words_zero (call : Syscall) (hlt : 0 < 4) : call.words[0] = call.firstWord := by
  simp [firstWord, List.getD]

theorem words_one (call : Syscall) (hlt : 1 < 4) : call.words[1] = call.secondWord := by
  simp [secondWord, List.getD]

theorem words_two (call : Syscall) (hlt : 2 < 4) : call.words[2] = call.thirdWord := by
  simp [thirdWord, List.getD]

end Syscall

/-- The demand of a syscall that has not begun. If it is a JOIN, `token` identifies its wait. -/
def Syscall.demand (call : Syscall) (table : Table Waker) (token : Nat) (waker : Waker) :
    Demand Waker :=
  if ¬ table.IsRunning call.caller then .nothing
  else
    match SyscallKind.ofNumber? call.number with
    | none => .finish call.caller .killed
    | some .halt => .nothing
    | some .exit => .finish call.caller (.exited (Word.lowCode call.firstWord))
    | some .exec => .start (some call.caller)
    | some .join =>
      match Pid.ofUser? (Word.lowCode call.firstWord) with
      | some target => .join ⟨call.caller, target, token, false⟩ waker
      | none => .nothing

def demand (kernel : Kernel Waker) : Call Waker → Demand Waker
  | .spawn parent _ _ => .start parent
  | .finishLoad outcome =>
    match kernel.loads with
    | [] => .nothing
    | load :: _ => .settle load outcome
  | .terminate pid status => .finish pid status
  | .shutdown => .clear
  | .openJoin .. | .openSyscall _ => .nothing
  | .poll request waker _ =>
    match kernel.requests[request]? with
    | none => .nothing
    | some (.syscall call) => call.demand kernel.table request waker
    | some (.join wait) | some (.collecting wait _) => .join wait waker
  | .abandon request =>
    match kernel.requests[request]? with
    | none | some (.syscall _) => .nothing
    | some (.join wait) | some (.collecting wait _) => .leave wait

/-- An answer that neither parks a request nor hands a status out, and is no fault. -/
def Answer.IsPlain : Answer → Prop
  | .pending | .collected _ | .faulted _ => False
  | _ => True

/-- The outcome of a poll, by the result of its attempt to join. -/
def Wait.outcomeOf : Except Errno (Option ExitStatus) → Option (Except Errno ExitStatus)
  | .ok none => none
  | .ok (some status) => some (.ok status)
  | .error cause => some (.error cause)

/-- A demand that leaves the table alone, or that is turned down before it gets there. -/
inductive Void (table : Table Waker) : Demand Waker → Prop where
  | nothing : Void table .nothing
  | start (parent : Option Pid) : Void table (.start parent)
  | finish {pid : Pid} (status : ExitStatus) (habsent : table.phaseOf? pid = none) :
      Void table (.finish pid status)
  | leave {wait : Wait} (hidle : ¬ wait.parked ∨ ¬ table.IsHeld wait.target wait.token) :
      Void table (.leave wait)

/-- What comes of a demand: the table and the loads afterwards, what others hear, and the answer
to the call. -/
inductive Change (kernel : Kernel Waker) :
    Demand Waker → Table Waker → List Load → List (Effect Waker) → Answer → Prop where
  | unchanged {demand : Demand Waker} {audible : List (Effect Waker)} {answer : Answer}
      (hvoid : Void kernel.table demand)
      (hquiet : ∀ effect ∈ audible, ∃ size, effect = .halt size)
      (hplain : answer.IsPlain) : kernel.Change demand kernel.table kernel.loads audible answer
  | inserted {load : Load} {name : String} {after : Table Waker} {answer : Answer}
      (hinserted : kernel.table.Inserted after load.parent name load.pid)
      (hplain : answer.IsPlain) :
      kernel.Change (.start load.parent) after (load :: kernel.loads) [] answer
  | admitted {load : Load} {loads : List Load} {entry : Entry} {answer : Answer}
      (hloads : kernel.loads = load :: loads) (hplain : answer.IsPlain) :
      kernel.Change (.settle load (.ok entry)) kernel.table loads
        [.admitted load.pid load.path entry kernel.table.size] answer
  | gone {load : Load} {loads : List Load} {cause : LoadFailure} {answer : Answer}
      (hloads : kernel.loads = load :: loads) (habsent : kernel.table.phaseOf? load.pid = none)
      (hplain : answer.IsPlain) :
      kernel.Change (.settle load (.error cause)) kernel.table loads [] answer
  | withdrawn {load : Load} {loads : List Load} {cause : LoadFailure} {after : Table Waker}
      {answer : Answer} (hloads : kernel.loads = load :: loads)
      (hremoved : kernel.table.Removed after load.pid)
      (hcount : after.running + 1 = kernel.table.running) (hplain : answer.IsPlain) :
      kernel.Change (.settle load (.error cause)) after loads
        ((kernel.table.wakerOf? load.pid).toList.map (.wake · after.size)) answer
  | ended {pid : Pid} {status : ExitStatus} {after : Table Waker} {audible : List (Effect Waker)}
      {answer : Answer} (hends : kernel.table.Ends pid status after audible)
      (hplain : answer.IsPlain) :
      kernel.Change (.finish pid status) after kernel.loads audible answer
  | cleared {answer : Answer} (hplain : answer.IsPlain) :
      kernel.Change .clear kernel.table.vacated kernel.loads
        (kernel.table.parked.map (.wake · 0) ++ [.stop 0]) answer
  | polled {wait : Wait} {waker : Waker} {result : Except Errno (Option ExitStatus)}
      {after : Table Waker} {answer : Answer}
      (hattempts : kernel.table.Attempts wait.caller wait.target wait.token waker result after)
      (hyields : (wait.poll waker).Yields kernel.table (.ok (Wait.outcomeOf result)) after [])
      (hpending : answer = .pending ↔ result = .ok none)
      (hcollected : ∀ status, answer = .collected status → result = .ok (some status)) :
      kernel.Change (.join wait waker) after kernel.loads [] answer
  | released {wait : Wait} {answer : Answer} (hheld : kernel.table.IsHeld wait.target wait.token)
      (hplain : answer.IsPlain) :
      kernel.Change (.leave wait) (kernel.table.setClaim wait.target none) kernel.loads [] answer

/-- A demand that stops on a fault. -/
inductive Blunder (table : Table Waker) : Demand Waker → Prop where
  | finish {pid : Pid} (status : ExitStatus) (hpresent : table.phaseOf? pid ≠ none)
      (hbad : table.phaseOf? pid = some .running → table.running = 0) :
      Blunder table (.finish pid status)
  | withdraw {load : Load} (cause : LoadFailure) (hpresent : table.phaseOf? load.pid ≠ none)
      (hbad : (∀ child, ¬ table.HasChild load.pid child) → table.running = 0) :
      Blunder table (.settle load (.error cause))

namespace Reply

/-- Whether the call stopped on a fault. -/
def Faulted (reply : Reply Waker) : Prop := ∃ fault, reply.answer = .faulted fault

def audible (reply : Reply Waker) : List (Effect Waker) := reply.effects.filter Effect.isAudible

end Reply

/-- A reply is one of the changes that a demand allows, or the fault of a blunder. -/
def Fulfils (kernel : Kernel Waker) (demand : Demand Waker) (reply : Reply Waker) : Prop :=
  (¬ reply.Faulted ∧ kernel.Change demand reply.kernel.table reply.kernel.loads reply.audible
    reply.answer) ∨
  (reply.Faulted ∧ Blunder kernel.table demand)

end Lifecycle.Kernel
