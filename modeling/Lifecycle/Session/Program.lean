import Lifecycle.Arguments
import Lifecycle.Image

/-!
# Images and their programs

An image says how a process starts: the addresses of its entry, its stack, its argument page and
its memory. It may come with a program, a list of instructions that the process performs. What an
instruction repeats is written out when the program is made (`Program.times`), so a program is
performed from front to back.
-/

namespace Lifecycle.Session

/-- A value that a program only shows. -/
inductive Label where
  | blank
  | flag (value : Bool)
  | number (value : Int)
  /-- A number with some decimal places. -/
  | decimal (digits : Int) (places : Nat)
  | text (value : String)
  | series (items : List Label)
  | entries (items : List (String × Label))
  deriving Inhabited

/-- A value that a program computes with. -/
inductive Operand where
  | literal (value : Int)
  | named (name : String)
  /-- The address of a string that is put into the process's memory. -/
  | string (bytes : Bytes)
  deriving DecidableEq, Repr

inductive Instruction where
  /-- Start an executable with arguments; `argc` is announced if given, and otherwise the number
  of arguments. -/
  | exec (into : Option String) (path : String) (arguments : List Bytes) (argc : Option Int)
  /-- Wait for a child. -/
  | join (child : Operand)
  | syscall (number : Nat) (words : List Operand) (into : Option String)
  | exit (code : Int)
  | halt
  /-- End a process by force. -/
  | kill (victim : Operand) (status : ExitStatus)
  | shutdown
  /-- Show how far a process has come. -/
  | phase (process : Operand)
  /-- Show the arguments of the process itself. -/
  | arguments
  | note (label : Label)
  /-- Give way to other tasks. -/
  | yield
  /-- Wait without anybody knowing. -/
  | park
  | assign (into : String) (value : Operand)
  /-- Perform instructions in another task of the same process. -/
  | thread (instructions : List Instruction)
  /-- End the program with a code. -/
  | leave (code : Int)
  deriving Inhabited

abbrev Program := List Instruction

/-- A program written out several times over. -/
def Program.times (count : Nat) (program : Program) : Program :=
  (List.replicate count program).flatten

/-- How a process starts, apart from what it does then. By default the memory is the first 64 KiB
without the first page, and its last page holds the arguments, with the stack below them. -/
structure Layout where
  counter : Nat := 4096
  stackTop : Nat := 64512
  /-- Where the argument page goes. -/
  argumentBase : Nat := 64512
  /-- The first address of the memory. -/
  low : Nat := 1024
  /-- The end of the memory. -/
  high : Nat := 65536
  /-- Why the image cannot be loaded, if it cannot. -/
  failure : Option LoadFailure := none
  deriving DecidableEq, Repr

/-- The entry of an image that is started with some arguments. The argument page has to fit into
the image's memory. -/
def Layout.load (layout : Layout) (arguments : ArgumentVector) : Except LoadFailure Entry :=
  match layout.failure with
  | some cause => .error cause
  | none =>
    match arguments.layout layout.argumentBase with
    | .error _ => .error .argsTooLong
    | .ok page =>
      let blank := Memory.zeroed layout.low (layout.high - layout.low)
      if blank.span layout.argumentBase page.bytes.length = page.bytes.length then
        .ok ⟨layout.counter, layout.stackTop, page.argc, page.argv,
          blank.write layout.argumentBase page.bytes⟩
      else .error .argsTooLong

end Lifecycle.Session
