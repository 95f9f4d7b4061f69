import Lifecycle.Fault
import Lifecycle.Memory.Basic
import Lifecycle.Word

/-!
# Where an image starts

Loading an executable image either fails for one of four reasons or gives an entry: the initial
registers and the memory that was built for the new process.
-/

namespace Lifecycle

/-- Why an image could not be loaded. -/
inductive LoadFailure where
  | notFound
  | badImage
  | argsTooLong
  | outOfMemory
  deriving DecidableEq, Repr

namespace LoadFailure

def name : LoadFailure → String
  | notFound => "NotFound"
  | badImage => "BadImage"
  | argsTooLong => "ArgsTooLong"
  | outOfMemory => "OutOfMemory"

def ofName? : String → Option LoadFailure
  | "NotFound" => some notFound
  | "BadImage" => some badImage
  | "ArgsTooLong" => some argsTooLong
  | "OutOfMemory" => some outOfMemory
  | _ => none

/-- The error that a spawn answers when its load fails. -/
def toErrno : LoadFailure → Errno
  | notFound => .ENOENT
  | badImage => .ENOEXEC
  | argsTooLong => .E2BIG
  | outOfMemory => .ENOMEM

end LoadFailure

/-- How a loaded image starts. -/
structure Entry where
  /-- Initial program counter. -/
  counter : Nat
  /-- Initial stack pointer. -/
  stackTop : Nat
  argc : Nat
  /-- Address of the argument page's pointer table. -/
  argv : Nat
  memory : Memory

namespace Entry

/-- The registers by name, addresses in hexadecimal. -/
def fields (entry : Entry) : List (String × String) :=
  [("entry", "0x" ++ Word.hexDigits entry.counter),
    ("stack_top", "0x" ++ Word.hexDigits entry.stackTop),
    ("argc", toString entry.argc),
    ("argv", "0x" ++ Word.hexDigits entry.argv)]

/-- All registers on one line. -/
def describe (entry : Entry) : String :=
  let shown := entry.fields.map fun field ↦ field.1 ++ ": " ++ field.2 ++ ", "
  "EntryContext \x7b " ++ String.join shown ++ ".. \x7d"

/-- One register on a line. -/
def describeLines (entry : Entry) : String :=
  let shown := entry.fields.map fun field ↦ "    " ++ field.1 ++ ": " ++ field.2 ++ ",\n"
  "EntryContext \x7b\n" ++ String.join shown ++ "    ..\n\x7d"

end Entry

end Lifecycle
