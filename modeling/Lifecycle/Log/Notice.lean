import Lifecycle.Image
import Lifecycle.Limits
import Lifecycle.Log.Level
import Lifecycle.Memory.Basic
import Lifecycle.Process
import Lifecycle.SyscallKind

/-!
# Notices

A notice is something that the subsystem logs, as data. Its level and its text are functions of
it, so operations decide what is worth logging and nothing else.
-/

namespace Lifecycle

inductive Notice where
  /-- Log output was turned on. -/
  | logEnabled
  /-- The process subsystem started. -/
  | subsystemUp
  /-- The run queue handed out a task. -/
  | taskFetched
  /-- The waker of a blocked thread was used. -/
  | blockedWoken
  /-- More arguments were announced than a vector may have. -/
  | tooManyArguments (count : Nat)
  /-- An argument was copied out of user memory. -/
  | argumentCopied (index : Nat) (bytes : Bytes)
  /-- An argument vector is larger than a page. -/
  | argumentsOverflow (size : Nat)
  /-- The table has no room for a record. -/
  | processLimitReached
  | inserted (pid : Pid) (name : String) (parent : Option Pid)
  | withdrawn (pid : Pid)
  | reaped (pid : Pid)
  | reapOfRunning (pid : Pid)
  | reapOfParked (pid : Pid)
  | recordMissing (pid : Pid)
  | terminatedTwice (pid : Pid) (name : String) (first second : ExitStatus)
  | adopted (pid : Pid) (parent : Option Pid)
  /-- A joiner gave up its slot. -/
  | slotReleased (pid : Pid)
  /-- The table drops all its records. -/
  | cleared (records : Nat)
  | joinParked (caller target : Pid)
  | joined (caller target : Pid) (status : ExitStatus)
  | joinRefused (caller target : Pid) (cause : Errno)
  | started (path : String) (pid : Pid) (parent : Option Pid) (argc : Nat)
  | loadFailed (path : String) (cause : LoadFailure)
  | ended (pid : Pid) (status : ExitStatus)
  | lastEnded
  | syscallOfStopped (caller : Pid) (number : Nat)
  | syscallUnknown (caller : Pid) (number : Nat)
  | killRefused (caller : Pid) (cause : Errno)
  | syscallMade (caller : Pid) (kind : SyscallKind) (words : List Nat)
  | syscallFailed (kind : SyscallKind) (cause : Errno)
  | haltIgnored (caller : Pid)
  | halting (caller : Pid)
  | exiting (caller : Pid) (code : Int32)
  | executing (caller : Pid) (path : String) (argc : Int32)
  deriving DecidableEq, Repr

namespace Notice

def level : Notice → Log.Level
  | reapOfRunning .. | reapOfParked .. | recordMissing .. | terminatedTwice ..
  | syscallUnknown .. => .error
  | tooManyArguments .. | argumentsOverflow .. | processLimitReached | joinRefused ..
  | loadFailed .. | syscallOfStopped .. | killRefused .. | syscallFailed .. => .warn
  | subsystemUp | cleared .. | joined .. | started .. | ended .. | lastEnded | haltIgnored ..
  | halting .. | exiting .. | executing .. => .info
  | logEnabled | inserted .. | withdrawn .. | reaped .. | adopted .. | slotReleased ..
  | joinParked .. => .debug
  | taskFetched | blockedWoken | argumentCopied .. | syscallMade .. => .trace

/-- Whether a threshold lets a notice through. -/
def passes (notice : Notice) (threshold : Log.Threshold) : Bool := threshold.allows notice.level

/-- Items between square brackets, separated by commas. -/
def bracketed (items : List String) : String := "[" ++ ", ".intercalate items ++ "]"

/-- A process id that may be missing. -/
def optionalPid : Option Pid → String
  | some pid => s!"Some({pid})"
  | none => "None"

def text : Notice → String
  | logEnabled => "Log Enable"
  | subsystemUp => "[Kernel] process subsystem up"
  | taskFetched => "try to fetch a task!"
  | blockedWoken => "block waker wakes"
  | tooManyArguments count =>
    s!"[ArgVector::copy_in] argc {count} exceeds {Limits.maxArgumentCount}"
  | argumentCopied index bytes =>
    let shown := bracketed (bytes.map fun byte ↦ toString byte.toNat)
    s!"[ArgVector::copy_in] argv[{index}] = {shown}"
  | argumentsOverflow size => s!"[ArgVector] {size} bytes of arguments do not fit in a page"
  | processLimitReached =>
    s!"[ProcessTable::insert] process limit {Limits.maxProcesses} reached"
  | inserted pid name parent =>
    s!"[ProcessTable::insert] pid {pid} ({name}) under {optionalPid parent}"
  | withdrawn pid => s!"[ProcessTable::rollback] pid {pid} rolled back"
  | reaped pid => s!"[ProcessTable::reclaim] pid {pid} reclaimed"
  | reapOfRunning pid => s!"[ProcessTable::reclaim] pid {pid} is still running"
  | reapOfParked pid => s!"[ProcessTable::reclaim] pid {pid} still has a parked joiner"
  | recordMissing pid => s!"[ProcessTable] record {pid} is linked but missing"
  | terminatedTwice pid name first second =>
    s!"process [{pid}] {name} terminated twice (Some({first.describe}) then {second.describe})"
  | adopted pid parent =>
    s!"[ProcessTable::reparent] pid {pid} now under {optionalPid parent}"
  | slotReleased pid => s!"[ProcessTable::release_claim] slot of pid {pid} released"
  | cleared records => s!"[ProcessTable::teardown] dropping {records} records"
  | joinParked caller target => s!"[join] pid {caller} parks on child {target}"
  | joined caller target status =>
    s!"[join] pid {caller} joined child {target} with {status.describe}"
  | joinRefused caller target cause =>
    s!"[join] pid {caller} cannot join {target}: {cause.name}"
  | started path pid parent argc =>
    s!"[spawn] {path} started as pid {pid} (parent {optionalPid parent}, argc {argc})"
  | loadFailed path cause => s!"[spawn] failed to load {path}: {cause.name}"
  | ended pid status => s!"[terminate] pid {pid} exited with {status.describe}"
  | lastEnded => "[terminate] last process finished"
  | syscallOfStopped caller number =>
    s!"[syscall] pid {caller} is not running, syscall {number} refused"
  | syscallUnknown caller number =>
    s!"[syscall] pid {caller} made unknown syscall {number}, killing it"
  | killRefused caller cause => s!"[syscall] cannot kill pid {caller}: {cause.name}"
  | syscallMade caller kind words =>
    let shown := bracketed (words.map Word.hexDigits)
    s!"[syscall] pid {caller} calls {kind.name} {shown}"
  | syscallFailed kind cause => s!"[syscall] {kind.name} return err {cause.name}"
  | haltIgnored caller => s!"[sys_halt] ignored, pid {caller} is not the root"
  | halting caller => s!"[sys_halt] root pid {caller} halts the machine"
  | exiting caller code => s!"[sys_exit] pid {caller} exit with {code.toInt}"
  | executing caller path argc =>
    s!"[sys_exec] pid {caller} execs {path} with {argc.toInt} args"

end Notice

end Lifecycle
