/-!
# Limits of the system

The bounds that every other module refers to by name: how many processes and process ids there
are, how large an argument vector may grow, and the widths of user memory.
-/

namespace Lifecycle.Limits

/-- The first process id handed out. -/
def firstPid : Nat := 1

/-- Process ids stay below this bound. -/
def pidLimit : Nat := 0x8000

/-- Records in the process table at once, exited ones included. -/
def maxProcesses : Nat := 256

/-- Strings in one argument vector. -/
def maxArgumentCount : Nat := 64

/-- Bytes in one argument or executable name, its terminator not counted. -/
def maxArgumentLength : Nat := 256

/-- Bytes of a page of user memory; an argument vector has to fit in one. -/
def pageSize : Nat := 1024

/-- Bytes of a pointer in user memory. -/
def pointerSize : Nat := 4

/-- User pointers are below this bound. -/
def pointerLimit : Nat := 0x100000000

/-- Machine words are below this bound. -/
def wordLimit : Nat := 0x10000000000000000

/-- No single buffer is as large as this. -/
def bufferLimit : Nat := 0x8000000000000000

end Lifecycle.Limits
