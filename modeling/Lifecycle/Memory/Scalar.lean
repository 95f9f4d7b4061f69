import Lifecycle.Limits
import Lifecycle.Memory.Basic
import Lifecycle.Errno

/-!
# Typed access to user memory

Scalars cross into user memory as little-endian bytes of a fixed width. Every access goes through
`Memory.read` and `Memory.write` and is refused with `EFAULT` if a byte of it is not mapped.
-/

namespace Lifecycle

namespace LittleEndian

/-- The `width` low bytes of a number, the lowest first. -/
def encode : Nat → Nat → Bytes
  | 0, _ => []
  | width + 1, value => UInt8.ofNat value :: encode width (value / 256)

def decode : Bytes → Nat
  | [] => 0
  | byte :: rest => byte.toNat + 256 * decode rest

@[simp]
theorem length_encode (width value : Nat) : (encode width value).length = width := by
  induction width generalizing value with
  | zero => rfl
  | succ width ih => simp [encode, ih]

theorem decode_encode (width value : Nat) :
    decode (encode width value) = value % Nat.pow 256 width := by
  induction width generalizing value with
  | zero => simp [encode, decode, Nat.mod_one]
  | succ width ih =>
    have power : Nat.pow 256 (width + 1) = 256 * Nat.pow 256 width :=
      Nat.mul_comm (Nat.pow 256 width) 256
    rw [encode, decode, ih, UInt8.toNat_ofNat', power, Nat.mod_mul]

theorem decode_lt (bytes : Bytes) : decode bytes < Nat.pow 256 bytes.length := by
  induction bytes with
  | nil => simp [decode]
  | cons byte rest ih =>
    have small := byte.toNat_lt
    have power : Nat.pow 256 (rest.length + 1) = Nat.pow 256 rest.length * 256 := rfl
    rw [decode, List.length_cons, power]
    omega

end LittleEndian

/-- The types of numbers that user memory holds. -/
inductive Scalar where
  | u8
  | u16
  | u32
  | i32
  | u64
  deriving DecidableEq, Repr

namespace Scalar

/-- Width in bytes. -/
def size : Scalar → Nat
  | u8 => 1
  | u16 => 2
  | u32 => 4
  | i32 => 4
  | u64 => 8

def isSigned : Scalar → Bool
  | i32 => true
  | _ => false

/-- The number of values of the type. -/
def modulus (scalar : Scalar) : Nat := Nat.pow 256 scalar.size

/-- Reads the bits of an unsigned number as a value of the type. -/
def ofBits (scalar : Scalar) (bits : Nat) : Int :=
  if scalar.isSigned ∧ scalar.modulus ≤ 2 * bits then (bits : Int) - scalar.modulus else bits

/-- The bits of an integer in the type's width. -/
def toBits (scalar : Scalar) (value : Int) : Nat := (value % (scalar.modulus : Int)).toNat

/-- The value of the type that an integer is cut down to. -/
def truncate (scalar : Scalar) (value : Int) : Int := scalar.ofBits (scalar.toBits value)

def encode (scalar : Scalar) (value : Int) : Bytes :=
  LittleEndian.encode scalar.size (scalar.toBits value)

def decode (scalar : Scalar) (bytes : Bytes) : Int := scalar.ofBits (LittleEndian.decode bytes)

@[simp]
theorem length_encode (scalar : Scalar) (value : Int) :
    (scalar.encode value).length = scalar.size := by
  simp [encode]

theorem toBits_lt (scalar : Scalar) (value : Int) : scalar.toBits value < scalar.modulus := by
  have positive : (0 : Int) < (scalar.modulus : Int) := by
    cases scalar <;> decide
  have small := Int.emod_lt_of_pos value positive
  have nonnegative := Int.emod_nonneg value (Int.ne_of_gt positive)
  unfold toBits
  omega

theorem decode_encode (scalar : Scalar) (value : Int) :
    scalar.decode (scalar.encode value) = scalar.truncate value := by
  unfold decode encode truncate
  rw [LittleEndian.decode_encode]
  exact congrArg scalar.ofBits (Nat.mod_eq_of_lt (scalar.toBits_lt value))

end Scalar

namespace Memory

/-- The value of a type at an address. -/
def readScalar (memory : Memory) (scalar : Scalar) (address : Nat) : Except Errno Int :=
  if memory.span address scalar.size = scalar.size then
    .ok (scalar.decode (memory.read address scalar.size))
  else .error .EFAULT

/-- Writes a value at an address. If not all of it is mapped, the mapped part is written
nevertheless. -/
def writeScalar (memory : Memory) (scalar : Scalar) (address : Nat) (value : Int) :
    Memory × Except Errno Unit :=
  (memory.write address (scalar.encode value),
    if memory.span address scalar.size = scalar.size then .ok () else .error .EFAULT)

/-- Cuts a sequence of bytes into `count` values. -/
def decodeVector (scalar : Scalar) : Nat → Bytes → List Int
  | 0, _ => []
  | count + 1, bytes =>
    scalar.decode (bytes.take scalar.size) ::
      decodeVector scalar count (bytes.drop scalar.size)

/-- The `count` values of a type that start at an address. -/
def readVector (memory : Memory) (scalar : Scalar) (address count : Nat) :
    Except Errno (List Int) :=
  let length := count * scalar.size
  if length < Limits.wordLimit ∧ memory.span address length = length then
    .ok (decodeVector scalar count (memory.read address length))
  else .error .EFAULT

/-- The bytes from an address up to the first NUL, at most `longest` of them. It is `EFAULT` if
memory ends before a NUL comes, and `ENAMETOOLONG` if there is none among the first
`longest + 1` bytes. -/
def readText (memory : Memory) (address longest : Nat) : Except Errno Bytes :=
  let bytes := memory.read address (longest + 1)
  let text := bytes.takeWhile (· ≠ 0)
  if text.length < bytes.length then .ok text
  else if bytes.length < longest + 1 then .error .EFAULT
  else .error .ENAMETOOLONG

end Memory

end Lifecycle
