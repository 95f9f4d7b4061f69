import Lifecycle.Proofs.Kernel.Ending
import Lifecycle.Proofs.Table.Insertion
import Lifecycle.Proofs.Table.Joining
import Mathlib.Data.Finset.Card

/-!
# The count of running processes

The table keeps a number that should be the number of running records. Every operation keeps it so,
with one proviso: the record that is withdrawn after a failed load has to be a running one.
-/

namespace Lifecycle.Table

variable {Waker : Type} {table before after : Table Waker} {pid : Pid}

/-- The processes that run. -/
def runningPids (table : Table Waker) : Finset Pid :=
  table.records.keys.toFinset.filter (table.phaseOf? · = some .running)

def Counted (table : Table Waker) : Prop := table.running = table.runningPids.card

theorem mem_runningPids : pid ∈ table.runningPids ↔ table.phaseOf? pid = some .running := by
  rw [runningPids, Finset.mem_filter, List.mem_toFinset]
  refine ⟨fun h ↦ h.2, fun hrunning ↦ ⟨?_, hrunning⟩⟩
  obtain ⟨record, hrecord, -⟩ := Option.map_eq_some_iff.1 hrunning
  rw [Std.ExtTreeMap.mem_keys, Std.ExtTreeMap.mem_iff_isSome_getElem?]
  exact Option.isSome_of_eq_some hrecord

/-- A table with a running process does not count zero. -/
theorem Counted.ne_zero (counted : table.Counted) (hrunning : table.phaseOf? pid = some .running) :
    table.running ≠ 0 := by
  rw [counted]
  exact Finset.card_ne_zero_of_mem (mem_runningPids.2 hrunning)

theorem runningPids_congr
    (hphase : ∀ pid, after.phaseOf? pid = some .running ↔ before.phaseOf? pid = some .running) :
    after.runningPids = before.runningPids := by
  ext pid
  rw [mem_runningPids, mem_runningPids, hphase]

theorem runningPids_of_erase
    (hphase : ∀ other, after.phaseOf? other = some .running ↔
      other ≠ pid ∧ before.phaseOf? other = some .running) :
    after.runningPids = before.runningPids.erase pid := by
  ext other
  rw [mem_runningPids, hphase, Finset.mem_erase, mem_runningPids]

/-! ## Who runs after an operation -/

theorem runningPids_vacated (table : Table Waker) : table.vacated.runningPids = ∅ := by
  ext pid
  simp [mem_runningPids, phaseOf?]

theorem runningPids_setClaim (sound : table.Sound) (claim : Option (Claim Waker)) :
    (table.setClaim pid claim).runningPids = table.runningPids :=
  runningPids_congr fun other ↦ by rw [phaseOf?_setClaim sound]

theorem Inserted.card_runningPids {parent : Option Pid} {name : String}
    (inserted : before.Inserted after parent name pid) :
    after.runningPids.card = before.runningPids.card + 1 := by
  have hinsert : after.runningPids = Insert.insert pid before.runningPids := by
    ext other
    rw [mem_runningPids, inserted.phaseOf?_eq, Finset.mem_insert, mem_runningPids]
    grind
  have hnot : pid ∉ before.runningPids := by
    rw [mem_runningPids, phaseOf?_eq_none_iff.2 inserted.absent]
    nofun
  rw [hinsert, Finset.card_insert_of_notMem hnot]

theorem Removed.runningPids_eq (removed : before.Removed after pid) :
    after.runningPids = before.runningPids.erase pid := by
  apply runningPids_of_erase
  intro other
  rw [removed.phaseOf?_eq]
  grind

/-- A process that has exited is not missed among those that run. -/
theorem Removed.runningPids_of_exited {status : ExitStatus} (removed : before.Removed after pid)
    (hexited : before.phaseOf? pid = some (.exited status)) :
    after.runningPids = before.runningPids := by
  have hnot : pid ∉ before.runningPids := by
    rw [mem_runningPids, hexited]
    nofun
  rw [removed.runningPids_eq, Finset.erase_eq_of_notMem hnot]

theorem Ended.runningPids_eq {status : ExitStatus} {wakers : List Waker} (sound : before.Sound)
    (ended : before.Ended after pid status wakers) :
    after.runningPids = before.runningPids.erase pid := by
  apply runningPids_of_erase
  intro other
  rw [ended.phaseOf?_eq sound]
  grind

section Attempts

variable {caller target : Pid} {token : Nat} {waker : Waker}
  {result : Except Errno (Option ExitStatus)}
  (attempts : before.Attempts caller target token waker result after)

include attempts

theorem Attempts.running_eq : after.running = before.running := by
  cases attempts with
  | stranger | busy => rfl
  | collected _ _ _ hcount => exact hcount
  | parked => exact running_setClaim _ _

theorem Attempts.runningPids_eq (sound : before.Sound) :
    after.runningPids = before.runningPids := by
  cases attempts with
  | stranger | busy => rfl
  | collected _ hexited hremoved _ => exact hremoved.runningPids_of_exited hexited
  | parked => exact runningPids_setClaim sound _

end Attempts

/-! ## The count after an operation -/

theorem counted_of_same (counted : before.Counted) (hcount : after.running = before.running)
    (hsame : after.runningPids = before.runningPids) : after.Counted := by
  rw [Counted, hcount, hsame, counted]

/-- When one process does not run any more and the count goes down by one, the count is right. -/
theorem counted_of_erase (counted : before.Counted)
    (hrunning : before.phaseOf? pid = some .running) (hcount : after.running + 1 = before.running)
    (herase : after.runningPids = before.runningPids.erase pid) : after.Counted := by
  have hcard := Finset.card_erase_add_one (mem_runningPids.2 hrunning)
  apply Nat.add_right_cancel (m := 1)
  calc
    after.running + 1 = before.runningPids.card := hcount.trans counted
    _ = after.runningPids.card + 1 := by rw [herase, hcard]

theorem counted_vacated (table : Table Waker) : table.vacated.Counted := by
  rw [Counted, runningPids_vacated]
  rfl

theorem Inserted.counted {parent : Option Pid} {name : String} (counted : before.Counted)
    (inserted : before.Inserted after parent name pid) : after.Counted := by
  rw [Counted, inserted.running_eq, inserted.card_runningPids, counted]

theorem Removed.counted_of_running (counted : before.Counted)
    (removed : before.Removed after pid) (hrunning : before.phaseOf? pid = some .running)
    (hcount : after.running + 1 = before.running) : after.Counted :=
  counted_of_erase counted hrunning hcount removed.runningPids_eq

theorem counted_setClaim (sound : table.Sound) (counted : table.Counted)
    (claim : Option (Claim Waker)) : (table.setClaim pid claim).Counted :=
  counted_of_same counted (running_setClaim _ _) (runningPids_setClaim sound claim)

theorem Ended.counted {status : ExitStatus} {wakers : List Waker} (sound : before.Sound)
    (counted : before.Counted) (ended : before.Ended after pid status wakers) : after.Counted :=
  counted_of_erase counted ended.was_running ended.running_eq (ended.runningPids_eq sound)

theorem Attempts.counted {caller target : Pid} {token : Nat} {waker : Waker}
    {result : Except Errno (Option ExitStatus)} (sound : before.Sound) (counted : before.Counted)
    (attempts : before.Attempts caller target token waker result after) : after.Counted :=
  counted_of_same counted attempts.running_eq (attempts.runningPids_eq sound)

end Lifecycle.Table
