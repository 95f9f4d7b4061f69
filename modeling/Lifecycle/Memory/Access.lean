import Lifecycle.Fault
import Lifecycle.Memory.Scalar

/-!
# Sequences of memory accesses

An access names one typed read or write of a memory. Its buffer is made before memory is looked
at, so a length that no buffer can have is a fault, whatever is mapped.
-/

namespace Lifecycle.Memory

inductive Access where
  | read (scalar : Scalar) (address : Nat)
  | vector (scalar : Scalar) (address count : Nat)
  | write (scalar : Scalar) (address : Nat) (value : Int)
  | text (address longest : Nat)
  | pointer (address : Nat)
  deriving DecidableEq, Repr

inductive AccessResult where
  | value (value : Int)
  | values (values : List Int)
  | written
  | text (bytes : Bytes)
  | pointer (isNull : Bool) (address : Nat)
  | refused (cause : Errno)
  | faulted (fault : Fault)
  deriving DecidableEq, Repr

/-- The fault that a buffer of a given length makes, if it makes one. -/
def bufferFault? (length : Nat) : Option Fault :=
  if Limits.bufferLimit ≤ length then some .bufferTooLarge else none

/-- Carries out one access. -/
def perform (memory : Memory) : Access → Memory × AccessResult
  | .read scalar address =>
    (memory, match memory.readScalar scalar address with
      | .ok value => .value value
      | .error cause => .refused cause)
  | .vector scalar address count =>
    let length := count * scalar.size
    (memory,
      if Limits.wordLimit ≤ length then .refused .EFAULT
      else
        match bufferFault? length, memory.readVector scalar address count with
        | some fault, _ => .faulted fault
        | none, .ok values => .values values
        | none, .error cause => .refused cause)
  | .write scalar address value =>
    match memory.writeScalar scalar address value with
    | (memory, .ok ()) => (memory, .written)
    | (memory, .error cause) => (memory, .refused cause)
  | .text address longest =>
    (memory,
      if Limits.wordLimit ≤ longest + 1 then .faulted .lengthOverflow
      else
        match bufferFault? (longest + 1) with
        | some fault => .faulted fault
        | none =>
          match memory.readText address longest with
          | .ok bytes => .text bytes
          | .error cause => .refused cause)
  | .pointer address => (memory, .pointer (address = 0) address)

/-- Carries out accesses in order and lists their results. -/
def performAll (memory : Memory) : List Access → Memory × List AccessResult
  | [] => (memory, [])
  | access :: rest =>
    let (memory, result) := memory.perform access
    let (memory, results) := memory.performAll rest
    (memory, result :: results)

end Lifecycle.Memory
