/-!
# Errors of the process subsystem

The causes for which an operation is refused, numbered and described as in `errno.h`.
`Errno.ofCode?` is the inverse of `Errno.code`.
-/

namespace Lifecycle

/-- Why an operation was refused. -/
inductive Errno where
  | EPERM
  | ENOENT
  | ESRCH
  | E2BIG
  | ENOEXEC
  | ECHILD
  | EAGAIN
  | ENOMEM
  | EFAULT
  | EBUSY
  | EINVAL
  | ENAMETOOLONG
  | ENOSYS
  deriving DecidableEq, Repr, Inhabited

namespace Errno

/-- All errors, in the order of their codes. -/
def all : List Errno :=
  [EPERM, ENOENT, ESRCH, E2BIG, ENOEXEC, ECHILD, EAGAIN, ENOMEM, EFAULT, EBUSY, EINVAL,
    ENAMETOOLONG, ENOSYS]

def code : Errno → Nat
  | EPERM => 1
  | ENOENT => 2
  | ESRCH => 3
  | E2BIG => 7
  | ENOEXEC => 8
  | ECHILD => 10
  | EAGAIN => 11
  | ENOMEM => 12
  | EFAULT => 14
  | EBUSY => 16
  | EINVAL => 22
  | ENAMETOOLONG => 36
  | ENOSYS => 38

def name : Errno → String
  | EPERM => "EPERM"
  | ENOENT => "ENOENT"
  | ESRCH => "ESRCH"
  | E2BIG => "E2BIG"
  | ENOEXEC => "ENOEXEC"
  | ECHILD => "ECHILD"
  | EAGAIN => "EAGAIN"
  | ENOMEM => "ENOMEM"
  | EFAULT => "EFAULT"
  | EBUSY => "EBUSY"
  | EINVAL => "EINVAL"
  | ENAMETOOLONG => "ENAMETOOLONG"
  | ENOSYS => "ENOSYS"

def description : Errno → String
  | EPERM => "Operation not permitted"
  | ENOENT => "No such file or directory"
  | ESRCH => "No such process"
  | E2BIG => "Argument list too long"
  | ENOEXEC => "Exec format error"
  | ECHILD => "No child processes"
  | EAGAIN => "Try again"
  | ENOMEM => "Out of memory"
  | EFAULT => "Bad address"
  | EBUSY => "Device or resource busy"
  | EINVAL => "Invalid argument"
  | ENAMETOOLONG => "File name too long"
  | ENOSYS => "Invalid system call number"

/-- The name, a colon and the description. -/
def message (error : Errno) : String :=
  error.name ++ ": " ++ error.description

/-- The error with a given code, if there is one. -/
def ofCode? (code : Int) : Option Errno :=
  all.find? fun error ↦ (error.code : Int) = code

theorem ofCode?_code (error : Errno) : ofCode? error.code = some error := by
  cases error <;> rfl

/-- The value a syscall answers for an error: its code, negated. -/
def negated (error : Errno) : Int := -(error.code : Int)

end Errno

end Lifecycle
