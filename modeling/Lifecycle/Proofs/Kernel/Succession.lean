import Lifecycle.Proofs.Kernel.Seclusion

/-!
# What the end of a process changes

`Ended` says in one equation what becomes of every record when a process ends. Here it is told for
each of those that have a part in it: the process, its children, the root that inherits them, and
everybody else.
-/

namespace Lifecycle

variable {Waker : Type}

namespace Table

variable {before after : Table Waker} {pid : Pid} {status : ExitStatus} {wakers : List Waker}

/-- What becomes of everybody when a process ends. -/
structure Succession (before after : Table Waker) (pid : Pid) (status : ExitStatus)
    (ending : Ending Waker) : Prop where
  /-- Another root takes the children over, whether they run or have exited. -/
  inherited {root child : Pid} {record : Record Waker} (hroot : before.root = some root)
    (hother : root ≠ pid) (hchild : before.record? child = some record)
    (hparent : record.parent = some pid) :
    after.record? child = some { record with claim := none, parent := some root }
  /-- Without another root a child that runs goes on without a parent. -/
  orphaned {child : Pid} {record : Record Waker}
    (hrootless : before.root = none ∨ before.root = some pid)
    (hchild : before.record? child = some record) (hparent : record.parent = some pid)
    (hrunning : record.phase = .running) :
    after.record? child = some { record with claim := none, parent := none }
  /-- Without another root nobody can collect a child that has exited. -/
  reaped {child : Pid} {record : Record Waker} {first : ExitStatus}
    (hrootless : before.root = none ∨ before.root = some pid)
    (hchild : before.record? child = some record) (hparent : record.parent = some pid)
    (hexited : record.phase = .exited first) :
    after.record? child = none ∧ child ∈ after.pids.freed
  kept {parent : Pid} {record : Record Waker} (hrecord : before.record? pid = some record)
    (hparent : record.parent = some parent) :
    after.record? pid = some { record with
      phase := .exited status, children := ∅
      claim := record.claim.map fun claim ↦ ⟨claim.token, none⟩ }
  gone {record : Record Waker} (hrecord : before.record? pid = some record)
    (horphan : record.parent = none) : after.record? pid = none ∧ pid ∈ after.pids.freed
  /-- The root that takes the children over changes by them alone. -/
  heir {root : Pid} (hroot : before.root = some root) (hother : root ≠ pid) :
    ∃ record children, before.record? root = some record ∧
      after.record? root = some { record with children } ∧
      ∀ child, child ∈ children ↔ child ∈ record.children ∨ before.parentOf? child = some pid
  untouched {other : Pid} (hother : other ≠ pid) (hstranger : before.parentOf? other ≠ some pid)
    (hroot : before.root ≠ some other) : after.record? other = before.record? other
  root_eq : after.root = if before.root = some pid then none else before.root
  running_eq : after.running + 1 = before.running
  /-- The ids of the records that are gone are free again, and no others. -/
  freed_iff (other : Pid) :
    other ∈ after.pids.freed ↔
      other ∈ before.pids.freed ∨ before.record? other ≠ none ∧ after.record? other = none
  next_eq : after.pids.next = before.pids.next
  /-- First whoever is parked on the process, then those on its children in the order of ids. -/
  wakers_eq : ∃ children : List Pid, children.Pairwise (· < ·) ∧
    (∀ child, child ∈ children ↔ before.parentOf? child = some pid) ∧
    ending.wakers = (before.wakerOf? pid).toList ++ children.filterMap before.wakerOf?
  isLast_iff : ending.isLast = true ↔ ∀ other, after.phaseOf? other ≠ some .running

theorem heirOf_of_other {root : Pid} (hroot : before.root = some root) (hother : root ≠ pid) :
    before.heirOf pid = some root := by
  rw [heirOf, hroot, Option.filter_some, if_pos (decide_eq_true hother)]

theorem heirOf_eq_none_iff :
    before.heirOf pid = none ↔ before.root = none ∨ before.root = some pid := by
  cases hroot : before.root with
  | none => simp [heirOf, hroot]
  | some root => simp [heirOf, hroot, Option.filter_some]

theorem sorted_childrenOf (table : Table Waker) (pid : Pid) :
    (table.childrenOf pid).Pairwise (· < ·) := by
  unfold childrenOf
  split
  · exact Std.ExtTreeSet.ordered_toList.imp Nat.compare_eq_lt.1
  · exact .nil

/-- The last process is told from the others by the count. -/
theorem Counted.running_eq_zero_iff {table : Table Waker} (counted : table.Counted) :
    table.running = 0 ↔ ∀ pid, table.phaseOf? pid ≠ some .running := by
  rw [counted, Finset.card_eq_zero, Finset.eq_empty_iff_forall_notMem]
  exact forall_congr' fun pid ↦ not_congr mem_runningPids

theorem Ended.succession (sound : before.Sound) (counted : before.Counted)
    (ended : before.Ended after pid status wakers) :
    before.Succession after pid status ⟨wakers, after.running = 0⟩ := by
  have hchildren {child : Pid} {record : Record Waker}
      (hchild : before.record? child = some record) (hparent : record.parent = some pid) :
      after.record? child = record.inheritedBy (before.heirOf pid) := by
    rw [ended.record?_child sound (parentOf?_of_record? hchild ▸ hparent), hchild,
      Option.bind_some]
  constructor
  case inherited =>
    intro root child record hroot hother hchild hparent
    rw [hchildren hchild hparent, heirOf_of_other hroot hother, Record.inheritedBy_some]
  case orphaned =>
    intro child record hrootless hchild hparent hrunning
    rw [hchildren hchild hparent, heirOf_eq_none_iff.2 hrootless,
      Record.inheritedBy_of_running hrunning]
  case reaped =>
    intro child record first hrootless hchild hparent hexited
    have hgone : after.record? child = none := by
      have hstopped : ¬ record.IsRunning := by simp [Record.IsRunning, hexited]
      rw [hchildren hchild hparent, heirOf_eq_none_iff.2 hrootless,
        Record.inheritedBy_none_of_stopped hstopped]
    exact ⟨hgone, (ended.freed_iff child).2 (.inr ⟨by simp [hchild], hgone⟩)⟩
  case kept =>
    intro parent record hrecord hparent
    have hsome : before.parentOf? pid ≠ none := by simp [parentOf?_of_record? hrecord, hparent]
    rw [ended.record?_self, if_neg hsome, hrecord]
    rfl
  case gone =>
    intro record hrecord horphan
    have hgone : after.record? pid = none := by
      rw [ended.record?_self, if_pos (parentOf?_of_record? hrecord ▸ horphan)]
    exact ⟨hgone, (ended.freed_iff pid).2 (.inr ⟨by simp [hrecord], hgone⟩)⟩
  case heir =>
    intro root hroot hother
    have hheir := heirOf_of_other hroot hother
    obtain ⟨hrunning, horphan, -⟩ := sound.heir_running hheir
    obtain ⟨record, hrecord, -⟩ := Option.map_eq_some_iff.1 hrunning
    have hstranger : before.parentOf? root ≠ some pid := by simp [horphan]
    refine ⟨record, (record.withChildren (before.childrenOf pid)).children, hrecord, ?_, ?_⟩
    · rw [ended.record?_eq, if_neg hother, if_neg hstranger, if_pos hheir, hrecord]
      rfl
    · intro child
      rw [Record.mem_children_withChildren, sound.mem_childrenOf, or_comm]
  case untouched =>
    intro other hother hstranger hroot
    have hheir : before.heirOf pid ≠ some other :=
      fun hheir ↦ hroot (Option.filter_eq_some_iff.1 hheir).1
    rw [ended.record?_eq, if_neg hother, if_neg hstranger, if_neg hheir]
  case root_eq =>
    rw [ended.root_eq]
    split
    · next hself => exact heirOf_eq_none_iff.2 (.inr hself)
    · next hother =>
      cases hroot : before.root with
      | none => exact heirOf_eq_none_iff.2 (.inl hroot)
      | some root => exact heirOf_of_other hroot fun heq ↦ hother (heq ▸ hroot)
  case running_eq => exact ended.running_eq
  case freed_iff => exact ended.freed_iff
  case next_eq => exact ended.next_eq
  case wakers_eq =>
    exact ⟨before.childrenOf pid, sorted_childrenOf before pid, fun _ ↦ sound.mem_childrenOf,
      ended.wakers_eq⟩
  case isLast_iff =>
    rw [decide_eq_true_iff]
    exact (ended.counted sound counted).running_eq_zero_iff

/-- What it comes to when a process is ended, whatever has become of it before. -/
structure SuccessionKept (table : Table Waker) : Prop where
  ended {pid : Pid} (hrunning : table.phaseOf? pid = some .running) (status : ExitStatus) :
    ∃ after ending, (terminate pid status).Yields table (.ok ending) after [] ∧
      table.Succession after pid status ending
  absent {pid : Pid} (habsent : table.record? pid = none) (status : ExitStatus) :
    (terminate pid status).Yields table (.error .ESRCH) table []
  exited {pid : Pid} {first : ExitStatus} (hexited : table.phaseOf? pid = some (.exited first))
    (status : ExitStatus) (effects : List (Effect Waker)) :
    ∃ notice, (terminate pid status).run ⟨table, effects⟩ =
      .failed (.fault (.terminatedTwice pid)) ⟨table, effects ++ [.note notice]⟩

end Table

namespace Kernel

/-- The end of a process has this effect after any calls, if loaders make none. -/
theorem Secluded.successionKept {calls : List (Call Waker)}
    (secluded : Secluded (initial.steps calls)) :
    (initial.reach calls).table.SuccessionKept := by
  obtain ⟨past, hrun, hpast⟩ := exists_run_of_secluded calls secluded
  have counted := hrun.counted_of_secluded hpast
  constructor
  case ended =>
    intro pid hrunning status
    obtain ⟨record, hrecord, hphase⟩ := Option.map_eq_some_iff.1 hrunning
    obtain ⟨after, wakers, hended, hyields⟩ :=
      Table.terminate_ended hrun.sound hrecord hphase (counted.ne_zero hrunning)
    exact ⟨after, _, hyields, hended.succession hrun.sound counted⟩
  case absent => exact fun habsent status ↦ Table.terminate_absent habsent
  case exited => exact Table.terminate_twice

/-- A root, its child, and two children of that one. The child is parked on the one that runs; the
other has exited. -/
def household : List (Call Nat) :=
  [.spawn none "init" .empty, .finishLoad (.ok ⟨0, 0, 0, 0, blank⟩),
    .spawn (some 1) "shell" .empty, .finishLoad (.ok ⟨0, 0, 0, 0, blank⟩),
    .spawn (some 2) "work" .empty, .finishLoad (.ok ⟨0, 0, 0, 0, blank⟩),
    .spawn (some 2) "done" .empty, .finishLoad (.ok ⟨0, 0, 0, 0, blank⟩),
    .openJoin 2 3, .poll 0 7 blank, .terminate 4 (.exited 5), .terminate 4 .killed]

theorem successionKept_household :
    (initial.reach household).table.phaseOf? 2 = some .running ∧
      (initial.reach household).table.parentOf? 3 = some 2 ∧
      (initial.reach household).table.wakerOf? 3 = some 7 ∧
      (initial.reach household).table.phaseOf? 4 = some (.exited (.exited 5)) ∧
      (initial.reach household).table.SuccessionKept := by
  have secluded : Secluded (initial.steps household) := by decide +kernel
  exact ⟨by decide +kernel, by decide +kernel, by decide +kernel, by decide +kernel,
    secluded.successionKept⟩

end Kernel

end Lifecycle
