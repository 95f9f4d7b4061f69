import Lifecycle.Log.Notice
import Lifecycle.Memory.Scalar

/-!
# Argument vectors

The argument strings of a new process: bytes without a NUL, so many and so long that a table of
pointers to them and the terminated strings fit in one page. A vector is made from strings that
the kernel holds (`ofStrings`) or copied out of user memory along a pointer table (`ofMemory`), and
laid out as a page of the new image (`layout`).
-/

namespace Lifecycle

/-- A value and what was logged on the way to it. -/
structure Noted (α : Type) where
  notices : List Notice
  value : α

structure ArgumentVector where
  strings : List Bytes
  deriving DecidableEq, Repr

/-- An argument vector laid out for a new image. -/
structure ArgumentPage where
  argc : Nat
  /-- Address of the pointer table. -/
  argv : Nat
  /-- What goes to that address: the table and, behind it, the strings. -/
  bytes : Bytes
  deriving DecidableEq, Repr

namespace ArgumentVector

def empty : ArgumentVector := ⟨[]⟩

def argc (vector : ArgumentVector) : Nat := vector.strings.length

/-- Bytes in the page: for each string a pointer, the string and its terminator. -/
def pageLength (vector : ArgumentVector) : Nat :=
  vector.strings.foldr (fun string length ↦ Limits.pointerSize + string.length + 1 + length) 0

/-- Accepts a vector that fits in a page. -/
def ifFits (vector : ArgumentVector) : Noted (Except Errno ArgumentVector) :=
  if Limits.pageSize < vector.pageLength then
    ⟨[.argumentsOverflow vector.pageLength], .error .E2BIG⟩
  else ⟨[], .ok vector⟩

/-- A string that may be an argument. -/
def IsArgument (string : Bytes) : Prop :=
  string.length ≤ Limits.maxArgumentLength ∧ 0 ∉ string

instance (string : Bytes) : Decidable (IsArgument string) :=
  inferInstanceAs (Decidable (_ ∧ _))

/-- The vector of given strings: `E2BIG` if there are too many or they do not fit in a page,
`EINVAL` if one is no argument. -/
def ofStrings (strings : List Bytes) : Noted (Except Errno ArgumentVector) :=
  if Limits.maxArgumentCount < strings.length then ⟨[], .error .E2BIG⟩
  else if ∀ string ∈ strings, IsArgument string then ifFits ⟨strings⟩
  else ⟨[], .error .EINVAL⟩

/-! ## Copying in -/

/-- The string behind a user pointer. One that is too long is `E2BIG`. -/
def copyString (memory : Memory) (address : Nat) : Except Errno Bytes :=
  match memory.readText address Limits.maxArgumentLength with
  | .error .ENAMETOOLONG => .error .E2BIG
  | outcome => outcome

/-- The strings behind the pointers, up to the first that cannot be read. -/
def copyStrings (memory : Memory) : List Nat → List Bytes × Option Errno
  | [] => ([], none)
  | address :: rest =>
    match copyString memory address with
    | .error cause => ([], some cause)
    | .ok string =>
      let (strings, failure) := copyStrings memory rest
      (string :: strings, failure)

/-- The vector of the first `argc` strings that the pointer table at `argv` refers to. -/
def ofMemory (memory : Memory) (argc : Int32) (argv : Nat) : Noted (Except Errno ArgumentVector) :=
  if argc < 0 then ⟨[], .error .EINVAL⟩
  else
    let count := argc.toInt.toNat
    if Limits.maxArgumentCount < count then ⟨[.tooManyArguments count], .error .E2BIG⟩
    else if count = 0 then ⟨[], .ok empty⟩
    else
      match memory.readVector .u32 argv count with
      | .error cause => ⟨[], .error cause⟩
      | .ok pointers =>
        let (strings, failure) := copyStrings memory (pointers.map Int.toNat)
        let copied := strings.mapIdx fun index string ↦ Notice.argumentCopied index string
        match failure with
        | some cause => ⟨copied, .error cause⟩
        | none =>
          let outcome := ifFits ⟨strings⟩
          ⟨copied ++ outcome.notices, outcome.value⟩

/-! ## Laying out -/

/-- Offsets of terminated strings that follow each other from `start` on. -/
def offsets (start : Nat) : List Bytes → List Nat
  | [] => []
  | string :: rest => start :: offsets (start + string.length + 1) rest

/-- The page for an image whose argument page starts at `base`, `EFAULT` if user pointers cannot
reach all of it. -/
def layout (vector : ArgumentVector) (base : Nat) : Except Errno ArgumentPage :=
  if Limits.pointerLimit ≤ base + vector.pageLength then .error .EFAULT
  else
    let starts := offsets (vector.argc * Limits.pointerSize) vector.strings
    let table := starts.flatMap fun start ↦
      LittleEndian.encode Limits.pointerSize (base + start)
    let strings := vector.strings.flatMap (· ++ [0])
    .ok ⟨vector.argc, base, table ++ strings⟩

end ArgumentVector

end Lifecycle
