import Lifecycle.Proofs.Table.Insertion
import Lifecycle.Proofs.Table.Removal

/-!
# Taking a process in and out again

When a process is taken out that was taken in just before, the table holds the same records as at
first. What is left is the use of an id: a fresh one now waits to be handed out again.
-/

namespace Lifecycle

variable {Waker : Type}

/-- A child that is not among the children can be put there and taken away. -/
theorem Record.withoutChild_withChild {record : Record Waker} {child : Pid}
    (hstranger : child ∉ record.children) :
    (record.withChild child).withoutChild child = record := by
  have hchildren : ((record.withChild child).withoutChild child).children = record.children := by
    apply Std.ExtTreeSet.ext_mem
    intro other
    rw [mem_children_withoutChild, mem_children_withChild]
    grind
  exact congrArg (fun children ↦ { record with children }) hchildren

namespace Table

variable {before middle after : Table Waker} {parent : Option Pid} {name : String} {pid : Pid}

/-- What is left when a process was taken in and out again. -/
structure Restored (before after : Table Waker) : Prop where
  records_eq : after.records = before.records
  root_eq : after.root = before.root
  running_eq : after.running = before.running
  recycled : before.pids.Recycled after.pids

/-- Nobody has a process for a child that has no record. -/
theorem Sound.notMem_children_of_absent (sound : before.Sound) {other : Pid}
    {record : Record Waker} (hrecord : before.record? other = some record)
    (habsent : before.record? pid = none) : pid ∉ record.children := by
  rw [sound.mem_children_iff hrecord, parentOf?, habsent, Option.bind_none]
  exact (Option.some_ne_none _).symm

theorem record?_of_removed_inserted (sound : before.Sound)
    (inserted : before.Inserted middle parent name pid) (removed : middle.Removed after pid)
    (other : Pid) : after.record? other = before.record? other := by
  have hparent : middle.parentOf? pid = parent := by rw [inserted.parentOf?_eq, if_pos rfl]
  rw [removed.record?_eq, hparent]
  split
  · next hself => rw [hself, inserted.absent]
  next hother =>
  rw [inserted.record?_eq, if_neg hother]
  split
  · cases hrecord : before.record? other with
    | none => rfl
    | some record =>
      have hstranger := sound.notMem_children_of_absent hrecord inserted.absent
      rw [Option.map_some, Option.map_some, Record.withoutChild_withChild hstranger]
  · rfl

/-- Neither the records nor the root tell that a process was there for a while. -/
theorem Inserted.restored (sound : before.Sound)
    (inserted : before.Inserted middle parent name pid) (removed : middle.Removed after pid)
    (hcount : after.running + 1 = middle.running) : before.Restored after := by
  have hlate := inserted.sound sound
  constructor
  case records_eq =>
    exact Std.ExtTreeMap.ext_getElem? (record?_of_removed_inserted sound inserted removed)
  case root_eq =>
    rw [removed.root_eq, inserted.root_eq]
    split
    · next hrootless => simp [Option.filter_some, inserted.rootless hrootless]
    · cases hroot : before.root with
      | none => rfl
      | some root =>
        have hne : root ≠ pid := by
          rintro rfl
          obtain ⟨hrunning, -⟩ := sound.root_running hroot
          rw [phaseOf?_eq_none_iff.2 inserted.absent] at hrunning
          cases hrunning
        rw [Option.filter_some, if_pos (decide_eq_true hne)]
  case running_eq =>
    rw [inserted.running_eq, Nat.add_left_inj] at hcount
    exact hcount
  case recycled =>
    obtain ⟨record, hrecord⟩ := Option.ne_none_iff_exists'.1 removed.present
    rw [removed.pids_eq]
    exact IdPool.recycled_of_take? inserted.taken (hlate.isOut hrecord)

/-- Whoever was taken in has no children and nobody who waits for it. -/
theorem Inserted.childless (inserted : before.Inserted middle parent name pid) (child : Pid) :
    ¬ middle.HasChild pid child := by
  rw [inserted.hasChild_iff]
  rintro (⟨hself, -⟩ | ⟨record, hrecord, -⟩)
  · obtain ⟨record, hrecord, -⟩ := inserted.parent_running hself
    rw [Option.mem_def, inserted.absent] at hrecord
    cases hrecord
  · rw [inserted.absent] at hrecord
    cases hrecord

end Table

end Lifecycle
