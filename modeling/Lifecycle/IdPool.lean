import Lifecycle.Fault
import Lifecycle.Limits
import Std.Data.ExtTreeSet

/-!
# Id pools

A pool hands out the numbers of a range. Fresh numbers come first, in increasing order; a number
that was given back is handed out again only when the range is used up, and then the one given
back last goes first. No number is given back twice in a row, so the numbers in wait are distinct.
-/

namespace Lifecycle

structure IdPool where
  /-- The smallest number that was never handed out. -/
  next : Nat
  /-- Numbers from here on do not belong to the pool. -/
  limit : Nat
  /-- Numbers given back, the latest first. -/
  freed : List Nat
  /-- The same numbers, to look one up. -/
  free : Std.ExtTreeSet Nat
  freed_nodup : freed.Nodup
  mem_free (id : Nat) : id ∈ free ↔ id ∈ freed

namespace IdPool

/-- A pool none of whose numbers was given back. -/
def fresh (next limit : Nat) : IdPool := ⟨next, limit, [], ∅, .nil, by simp⟩

/-- A pool over `start, …, limit - 1`, all of it fresh. -/
def ofRange (start limit : Nat) : Except Fault IdPool :=
  if start < limit then .ok (fresh start limit) else .error .emptyRange

/-- The pool that process ids are taken from. -/
def ofPids : IdPool := fresh Limits.firstPid Limits.pidLimit

theorem ofRange_pids : ofRange Limits.firstPid Limits.pidLimit = .ok ofPids := rfl

/-- The next number and the pool without it, or nothing if every number is handed out. -/
def take? (pool : IdPool) : Option (Nat × IdPool) :=
  if pool.next < pool.limit then some (pool.next, { pool with next := pool.next + 1 })
  else
    match found : pool.freed with
    | [] => none
    | id :: freed =>
      have distinct := List.nodup_cons.1 (found ▸ pool.freed_nodup)
      some (id,
        { pool with
          freed
          free := pool.free.erase id
          freed_nodup := distinct.2
          mem_free := fun other ↦ by
            simp only [Std.ExtTreeSet.mem_erase, pool.mem_free, found, List.mem_cons]
            grind })

/-- Gives a number back. -/
def release (pool : IdPool) (id : Nat) : Except Fault IdPool :=
  if pool.next ≤ id then .error (.neverAllocated id)
  else if free : id ∈ pool.free then .error (.freedTwice id)
  else
    .ok
      { pool with
        freed := id :: pool.freed
        free := pool.free.insert id
        freed_nodup := List.nodup_cons.2 ⟨mt (pool.mem_free id).2 free, pool.freed_nodup⟩
        mem_free := fun other ↦ by
          simp only [Std.ExtTreeSet.mem_insert, pool.mem_free, List.mem_cons]
          grind }

/-! ## Sequences of requests -/

/-- What a pool can be asked for. -/
inductive Request where
  | take
  | release (id : Nat)
  deriving DecidableEq, Repr

/-- The pool's answer to one request. -/
inductive Reply where
  | taken (id : Option Nat)
  | released
  | faulted (fault : Fault)
  deriving DecidableEq, Repr

/-- Serves one request. A fault leaves the pool as it was. -/
def serve (pool : IdPool) : Request → IdPool × Reply
  | .take =>
    match pool.take? with
    | some (id, rest) => (rest, .taken (some id))
    | none => (pool, .taken none)
  | .release id =>
    match pool.release id with
    | .ok rest => (rest, .released)
    | .error fault => (pool, .faulted fault)

/-- Serves the requests in order and lists the replies. -/
def serveAll (pool : IdPool) : List Request → IdPool × List Reply
  | [] => (pool, [])
  | request :: rest =>
    let (pool, reply) := pool.serve request
    let (pool, replies) := pool.serveAll rest
    (pool, reply :: replies)

end IdPool

end Lifecycle
