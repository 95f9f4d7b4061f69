import Lifecycle.IdPool
import Lifecycle.Process
import Std.Data.ExtTreeMap
import Std.Data.ExtTreeSet

/-!
# The process table

The table owns one record per process, running or exited, keyed by process id. Parent and child
links are ids that are resolved through the table. An exited process stays in the table until its
status is collected.

A process has one join slot. Whoever waits for the process holds it by a claim, which names the
holder by a token and keeps the holder's waker while the holder is parked. Wakers are opaque here,
so the table is a type of its own for every type of wakers.

Ids are used again; births are not. The birth of a record is the number of records that the table
had taken in before it, so it tells apart processes that had the same id one after the other.
-/

namespace Lifecycle

/-- A held join slot. -/
structure Claim (Waker : Type) where
  token : Nat
  /-- The holder's waker. It is taken when the holder is woken; the slot stays held. -/
  waker : Option Waker

structure Record (Waker : Type) where
  pid : Pid
  birth : Nat
  name : String
  parent : Option Pid
  phase : Phase
  children : Std.ExtTreeSet Pid
  claim : Option (Claim Waker)

namespace Record

variable {Waker : Type}

/-- The record of a process that begins to run. -/
def fresh (pid : Pid) (birth : Nat) (name : String) (parent : Option Pid) : Record Waker :=
  ⟨pid, birth, name, parent, .running, ∅, none⟩

/-- The waker of a parked joiner. -/
def waker? (record : Record Waker) : Option Waker := record.claim.bind (·.waker)

/-- The record after its claim's waker was taken. -/
def takeWaker (record : Record Waker) : Record Waker :=
  { record with claim := record.claim.map fun claim ↦ { claim with waker := none } }

def IsRunning (record : Record Waker) : Prop := record.phase = .running

instance (record : Record Waker) : Decidable record.IsRunning :=
  inferInstanceAs (Decidable (_ = _))

end Record

structure Table (Waker : Type) where
  records : Std.ExtTreeMap Pid (Record Waker)
  /-- The ids that new processes get. -/
  pids : IdPool
  /-- The process that has no parent from the start; orphans are handed to it. -/
  root : Option Pid
  /-- The number of running processes. -/
  running : Nat
  /-- The number of records the table has ever taken in. -/
  births : Nat

namespace Table

variable {Waker : Type}

def empty : Table Waker := ⟨∅, .ofPids, none, 0, 0⟩

/-! ## Views -/

/-- The number of records, exited processes included. -/
def size (table : Table Waker) : Nat := table.records.size

def record? (table : Table Waker) (pid : Pid) : Option (Record Waker) := table.records[pid]?

/-- All records in the order of their ids. -/
def recordList (table : Table Waker) : List (Record Waker) := table.records.toList.map (·.2)

@[simp] theorem record?_empty (pid : Pid) : (empty : Table Waker).record? pid = none := by
  simp [record?, empty]

/-- A process that has a record and runs. -/
def IsRunning (table : Table Waker) (pid : Pid) : Prop :=
  ∃ record ∈ table.record? pid, record.IsRunning

instance (table : Table Waker) (pid : Pid) : Decidable (table.IsRunning pid) :=
  match found : table.record? pid with
  | none => isFalse fun ⟨_, member, _⟩ ↦ by simp [found] at member
  | some record =>
    if running : record.IsRunning then isTrue ⟨record, by simp [found], running⟩
    else isFalse fun ⟨other, member, otherRunning⟩ ↦ by
      simp only [found, Option.mem_some_iff] at member
      exact running (member ▸ otherRunning)

/-! ## Single changes -/

/-- Stores a record under its own id. -/
def put (table : Table Waker) (record : Record Waker) : Table Waker :=
  { table with records := table.records.insert record.pid record }

def erase (table : Table Waker) (pid : Pid) : Table Waker :=
  { table with records := table.records.erase pid }

/-- Takes a child off its parent's set, if the parent has a record. -/
def unlink (table : Table Waker) (parent : Option Pid) (child : Pid) : Table Waker :=
  match parent.bind table.record? with
  | some record => table.put { record with children := record.children.erase child }
  | none => table

/-- Leaves the table without a root if a process was it. -/
def unsetRoot (table : Table Waker) (pid : Pid) : Table Waker :=
  { table with root := table.root.filter (· ≠ pid) }

theorem record?_put (table : Table Waker) (record : Record Waker) (pid : Pid) :
    (table.put record).record? pid =
      if record.pid = pid then some record else table.record? pid := by
  simp [record?, put, Std.ExtTreeMap.getElem?_insert]

theorem record?_erase (table : Table Waker) (erased pid : Pid) :
    (table.erase erased).record? pid = if erased = pid then none else table.record? pid := by
  simp [record?, erase, Std.ExtTreeMap.getElem?_erase]

@[simp] theorem record?_unsetRoot (table : Table Waker) (formerRoot pid : Pid) :
    (table.unsetRoot formerRoot).record? pid = table.record? pid := rfl

end Table

end Lifecycle
