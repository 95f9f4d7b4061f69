import Lifecycle.IdPool

/-!
# What a pool hands out

Laws of single requests. A number below `next` that does not wait to be handed out again can be
given back, and then waits in front of the others; a number that is handed out is fresh or was
the one in front.
-/

namespace Lifecycle.IdPool

/-- The pool after a number was given back; unchanged if that is a fault. -/
def released (pool : IdPool) (id : Nat) : IdPool := (pool.serve (.release id)).1

/-- Whether a number may be given back. -/
def IsOut (pool : IdPool) (id : Nat) : Prop := id < pool.next ∧ id ∉ pool.freed

variable {pool rest : IdPool} {id : Nat}

theorem release_of_isOut (hout : pool.IsOut id) : pool.release id = .ok (pool.released id) := by
  have hnext : ¬ pool.next ≤ id := Nat.not_le.2 hout.1
  have hfree : id ∉ pool.free := mt (pool.mem_free id).1 hout.2
  simp [released, serve, release, hnext, hfree]

theorem freed_released (hout : pool.IsOut id) : (pool.released id).freed = id :: pool.freed := by
  have hnext : ¬ pool.next ≤ id := Nat.not_le.2 hout.1
  have hfree : id ∉ pool.free := mt (pool.mem_free id).1 hout.2
  simp [released, serve, release, hnext, hfree]

@[simp]
theorem next_released (pool : IdPool) (id : Nat) : (pool.released id).next = pool.next := by
  unfold released serve release
  grind

@[simp]
theorem limit_released (pool : IdPool) (id : Nat) : (pool.released id).limit = pool.limit := by
  unfold released serve release
  grind

theorem serve_release_of_isOut (hout : pool.IsOut id) :
    pool.serve (.release id) = (pool.released id, .released) := by
  simp only [serve, release_of_isOut hout]

theorem serve_release_of_unreached (hnext : pool.next ≤ id) :
    pool.serve (.release id) = (pool, .faulted (.neverAllocated id)) := by
  simp [serve, release, hnext]

theorem serve_release_of_freed (hnext : id < pool.next) (hmem : id ∈ pool.freed) :
    pool.serve (.release id) = (pool, .faulted (.freedTwice id)) := by
  simp [serve, release, Nat.not_le.2 hnext, pool.mem_free, hmem]

/-- A number that is handed out is the next fresh one or, when these are used up, the one that
was given back last. -/
theorem take?_eq_some (htake : pool.take? = some (id, rest)) :
    (pool.next < pool.limit ∧ id = pool.next ∧ rest.next = pool.next + 1 ∧
        rest.freed = pool.freed ∧ rest.limit = pool.limit) ∨
      (pool.limit ≤ pool.next ∧ pool.freed = id :: rest.freed ∧ rest.next = pool.next ∧
        rest.limit = pool.limit) := by
  unfold take? at htake
  split at htake
  · next hfresh =>
    cases htake
    exact .inl ⟨hfresh, rfl, rfl, rfl, rfl⟩
  · next hused =>
    split at htake
    · cases htake
    · next hfreed =>
      cases htake
      exact .inr ⟨Nat.not_lt.1 hused, hfreed, rfl, rfl⟩

theorem take?_eq_none_iff : pool.take? = none ↔ pool.limit ≤ pool.next ∧ pool.freed = [] := by
  unfold take?
  split
  · next hfresh => simp [Nat.not_le.2 hfresh]
  · next hused => split <;> simp_all

/-- What a pool hands out is told by its numbers in wait. -/
theorem eq_of_freed {other : IdPool} (hnext : other.next = pool.next)
    (hlimit : other.limit = pool.limit) (hfreed : other.freed = pool.freed) : other = pool := by
  have hfree : other.free = pool.free :=
    Std.ExtTreeSet.ext_mem fun id ↦ by rw [mem_free, mem_free, hfreed]
  cases pool
  cases other
  congr

/-- What becomes of a pool when the next number is handed out and given back. -/
structure Recycled (before after : IdPool) : Prop where
  /-- One number goes from the fresh ones to those in wait. -/
  of_fresh (hfresh : before.next < before.limit) :
    after.next = before.next + 1 ∧ after.freed = before.next :: before.freed ∧
      after.limit = before.limit
  of_used (hused : before.limit ≤ before.next) : after = before

theorem recycled_of_take? (htake : pool.take? = some (id, rest)) (hout : rest.IsOut id) :
    pool.Recycled (rest.released id) := by
  have hfreed := freed_released hout
  obtain ⟨hfresh, rfl, hnext, hkept, hlimit⟩ | ⟨hused, hfront, hnext, hlimit⟩ :=
    take?_eq_some htake
  · refine ⟨fun _ ↦ ?_, fun hused ↦ absurd hfresh (Nat.not_lt.2 hused)⟩
    rw [hfreed, next_released, limit_released, hnext, hkept, hlimit]
    exact ⟨rfl, rfl, rfl⟩
  · refine ⟨fun hfresh ↦ absurd hused (Nat.not_le.2 hfresh), fun _ ↦ eq_of_freed ?_ ?_ ?_⟩
    · rw [next_released, hnext]
    · rw [limit_released, hlimit]
    · rw [hfreed, hfront]

end Lifecycle.IdPool
