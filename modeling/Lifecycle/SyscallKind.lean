/-!
# The syscalls there are

A process asks for a syscall by number. Four numbers are known.
-/

namespace Lifecycle

inductive SyscallKind where
  | halt
  | exit
  | exec
  | join
  deriving DecidableEq, Repr

namespace SyscallKind

def number : SyscallKind → Nat
  | halt => 0
  | exit => 1
  | exec => 2
  | join => 3

def name : SyscallKind → String
  | halt => "HALT"
  | exit => "EXIT"
  | exec => "EXEC"
  | join => "JOIN"

def ofNumber? : Nat → Option SyscallKind
  | 0 => some halt
  | 1 => some exit
  | 2 => some exec
  | 3 => some join
  | _ => none

theorem ofNumber?_number (kind : SyscallKind) : ofNumber? kind.number = some kind := by
  cases kind <;> rfl

end SyscallKind

end Lifecycle
