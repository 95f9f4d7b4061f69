import Std.Data.ExtTreeMap

/-!
# Flat user memory

A memory maps one contiguous range of addresses, zeroed at first. Reading and writing transfer
the bytes from an address up to the end of the range and report how many there were; an address
outside the range transfers nothing. `Memory.byteAt` is the view that the lemmas speak about: a
write changes exactly the bytes it transfers.
-/

namespace Lifecycle

abbrev Bytes := List UInt8

structure Memory where
  /-- The first mapped address. -/
  base : Nat
  /-- The number of mapped addresses. -/
  size : Nat
  /-- The bytes that were written; every other mapped byte is zero. -/
  cells : Std.ExtTreeMap Nat UInt8

namespace Memory

/-- A zeroed memory over `base, …, base + size - 1`. -/
def zeroed (base size : Nat) : Memory := ⟨base, size, ∅⟩

/-- A memory without addresses. -/
def unmapped : Memory := zeroed 0 0

/-- The first address past the end. -/
def limit (memory : Memory) : Nat := memory.base + memory.size

def IsMapped (memory : Memory) (address : Nat) : Prop :=
  memory.base ≤ address ∧ address < memory.limit

instance (memory : Memory) (address : Nat) : Decidable (memory.IsMapped address) :=
  inferInstanceAs (Decidable (_ ∧ _))

def byteAt (memory : Memory) (address : Nat) : UInt8 := memory.cells.getD address 0

/-- How many of `length` bytes starting at an address are mapped without a gap. -/
def span (memory : Memory) (address length : Nat) : Nat :=
  if memory.IsMapped address then min length (memory.limit - address) else 0

/-- The mapped bytes among the `length` ones starting at an address. -/
def read (memory : Memory) (address length : Nat) : Bytes :=
  (List.range (memory.span address length)).map fun offset ↦ memory.byteAt (address + offset)

/-- Stores bytes at consecutive addresses, mapped or not. -/
def store (memory : Memory) (address : Nat) : Bytes → Memory
  | [] => memory
  | byte :: rest =>
    { memory with cells := memory.cells.insert address byte }.store (address + 1) rest

/-- Stores the part of the bytes that is mapped. -/
def write (memory : Memory) (address : Nat) (bytes : Bytes) : Memory :=
  memory.store address (bytes.take (memory.span address bytes.length))

/-- Everything that is mapped, in order of addresses. -/
def contents (memory : Memory) : Bytes := memory.read memory.base memory.size

/-! ## What a write leaves alone, and what it changes -/

@[simp]
theorem base_store (memory : Memory) (address : Nat) (bytes : Bytes) :
    (memory.store address bytes).base = memory.base := by
  induction bytes generalizing memory address with
  | nil => rfl
  | cons byte rest ih => simp [store, ih]

@[simp]
theorem size_store (memory : Memory) (address : Nat) (bytes : Bytes) :
    (memory.store address bytes).size = memory.size := by
  induction bytes generalizing memory address with
  | nil => rfl
  | cons byte rest ih => simp [store, ih]

@[simp]
theorem base_write (memory : Memory) (address : Nat) (bytes : Bytes) :
    (memory.write address bytes).base = memory.base := by
  simp [write]

@[simp]
theorem size_write (memory : Memory) (address : Nat) (bytes : Bytes) :
    (memory.write address bytes).size = memory.size := by
  simp [write]

theorem byteAt_insert (memory : Memory) (address other : Nat) (byte : UInt8) :
    ({ memory with cells := memory.cells.insert address byte } : Memory).byteAt other =
      if address = other then byte else memory.byteAt other := by
  simp [byteAt, Std.ExtTreeMap.getD_insert]

theorem byteAt_store (memory : Memory) (address other : Nat) (bytes : Bytes) :
    (memory.store address bytes).byteAt other =
      if address ≤ other then (bytes[other - address]?).getD (memory.byteAt other)
      else memory.byteAt other := by
  induction bytes generalizing memory address with
  | nil => simp [store]
  | cons byte rest ih =>
    rw [store, ih, byteAt_insert]
    rcases Nat.lt_trichotomy address other with before | same | after
    · have positive : other - address = (other - (address + 1)) + 1 := by omega
      rw [if_pos (by omega : address + 1 ≤ other), if_pos (by omega : address ≤ other),
        if_neg (by omega), positive]
      simp
    · subst same
      rw [if_neg (by omega), if_pos rfl, if_pos (Nat.le_refl _)]
      simp
    · rw [if_neg (by omega), if_neg (by omega), if_neg (by omega)]

/-- A write changes the bytes that it transfers and no others. -/
theorem byteAt_write (memory : Memory) (address other : Nat) (bytes : Bytes) :
    (memory.write address bytes).byteAt other =
      if address ≤ other ∧ other < address + memory.span address bytes.length then
        (bytes[other - address]?).getD 0
      else memory.byteAt other := by
  rw [write, byteAt_store]
  by_cases before : address ≤ other
  · have bound : memory.span address bytes.length ≤ bytes.length := by
      unfold span
      split <;> omega
    by_cases inside : other < address + memory.span address bytes.length
    · have early : other - address < memory.span address bytes.length := by omega
      have present : other - address < bytes.length := by omega
      simp [before, inside, early, present]
    · have late : memory.span address bytes.length ≤ other - address := by omega
      simp [before, inside, List.getElem?_take_eq_none late]
  · simp [before]

@[simp]
theorem length_read (memory : Memory) (address length : Nat) :
    (memory.read address length).length = memory.span address length := by
  simp [read]

end Memory

end Lifecycle
