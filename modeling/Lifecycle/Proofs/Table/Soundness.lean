import Lifecycle.Proofs.Pool
import Lifecycle.Proofs.Table.Views

/-!
# What holds of the process table

`Table.WellFormed` says that the links between records agree with each other and that the root and
the phases of processes fit to them. `Table.Sound` adds what ties the records to the pool of ids
and to the births; it is what every operation on the table keeps as long as it does not stop on a
fault. The count of running processes is no part of it.
-/

namespace Lifecycle.Table

variable {Waker : Type}

structure WellFormed (table : Table Waker) : Prop where
  /-- Children sets and parent links are two spellings of one relation between records. -/
  hasChild_iff (parent child : Pid) :
    table.HasChild parent child ↔
      (∃ record, table.record? parent = some record) ∧ table.parentOf? child = some parent
  parent_running {child parent : Pid} (hparent : table.parentOf? child = some parent) :
    table.phaseOf? parent = some .running
  exited_iff_status {pid : Pid} {phase : Phase} (hphase : table.phaseOf? pid = some phase) :
    phase ≠ .running ↔ ∃ status, phase.status? = some status
  exited_childless {pid : Pid} {status : ExitStatus}
    (hexited : table.phaseOf? pid = some (.exited status)) (child : Pid) :
    ¬ table.HasChild pid child
  exited_parent {pid : Pid} {status : ExitStatus}
    (hexited : table.phaseOf? pid = some (.exited status)) : table.parentOf? pid ≠ none
  root_running {root : Pid} (hroot : table.root = some root) :
    table.phaseOf? root = some .running ∧ table.parentOf? root = none
  size_le : table.size ≤ Limits.maxProcesses
  /-- Every record is stored under its own id. -/
  stored {pid : Pid} {record : Record Waker} (hrecord : table.record? pid = some record) :
    record.pid = pid

/-- A well-formed table whose ids are accounted for: every id that was ever handed out belongs to
a record or waits in the pool, and no two records were born together. -/
structure Sound (table : Table Waker) : Prop extends table.WellFormed where
  parent_ne (pid : Pid) : table.parentOf? pid ≠ some pid
  /-- Nobody stays parked on a process that has exited. -/
  exited_unparked {pid : Pid} {status : ExitStatus}
    (hexited : table.phaseOf? pid = some (.exited status)) : table.wakerOf? pid = none
  accounted (pid : Nat) :
    table.phaseOf? pid ≠ none ∨ pid ∈ table.pids.freed ↔
      Limits.firstPid ≤ pid ∧ pid < table.pids.next
  freed_absent {pid : Pid} (hfreed : pid ∈ table.pids.freed) : table.phaseOf? pid = none
  first_le : Limits.firstPid ≤ table.pids.next
  next_le : table.pids.next ≤ Limits.pidLimit
  limit_eq : table.pids.limit = Limits.pidLimit
  birth_lt {pid : Pid} {birth : Nat} (hbirth : table.birthOf? pid = some birth) :
    birth < table.births
  birth_injective {pid other : Pid} {birth : Nat} (hbirth : table.birthOf? pid = some birth)
    (hsame : table.birthOf? other = some birth) : pid = other

/-- To compare both spellings of the links, records need not be looked at. -/
theorem hasChild_iff_of_links {table : Table Waker} {parent child : Pid}
    (hlinks : table.HasChild parent child ↔ table.parentOf? child = some parent) :
    table.HasChild parent child ↔
      (∃ record, table.record? parent = some record) ∧ table.parentOf? child = some parent := by
  refine ⟨fun hchild ↦ ⟨?_, hlinks.1 hchild⟩, fun h ↦ hlinks.2 h.2⟩
  obtain ⟨record, hrecord, -⟩ := hchild
  exact ⟨record, hrecord⟩

theorem exited_iff_status_of_phase (phase : Phase) :
    phase ≠ .running ↔ ∃ status, phase.status? = some status := by
  cases phase <;> simp [Phase.status?]

namespace Sound

variable {table : Table Waker} {pid parent child : Pid} {record : Record Waker}

theorem hasChild_iff_parentOf? (sound : table.Sound) :
    table.HasChild parent child ↔ table.parentOf? child = some parent := by
  rw [sound.hasChild_iff]
  refine ⟨fun h ↦ h.2, fun hparent ↦ ⟨?_, hparent⟩⟩
  obtain ⟨record, hrecord, -⟩ := Option.map_eq_some_iff.1 (sound.parent_running hparent)
  exact ⟨record, hrecord⟩

theorem mem_children_iff (sound : table.Sound) (hrecord : table.record? parent = some record) :
    child ∈ record.children ↔ table.parentOf? child = some parent := by
  rw [← hasChild_iff_of_record? hrecord, sound.hasChild_iff_parentOf?]

/-- An id with a record can be given back. -/
theorem isOut (sound : table.Sound) (hrecord : table.record? pid = some record) :
    table.pids.IsOut pid := by
  have hne : table.phaseOf? pid ≠ none := by simp [phaseOf?, hrecord]
  exact ⟨((sound.accounted pid).1 (.inl hne)).2, fun hfreed ↦ hne (sound.freed_absent hfreed)⟩

/-- A table without records is sound if its ids are all fresh. -/
theorem of_vacant (hrecords : table.records = ∅) (hroot : table.root = none)
    (hpids : table.pids = .ofPids) : table.Sound := by
  have hvacant (pid : Pid) : table.record? pid = none := by simp [record?, hrecords]
  constructor
  case toWellFormed =>
    constructor <;>
      simp [hvacant, hroot, size, hrecords, HasChild, parentOf?, phaseOf?]
  case accounted =>
    intro pid
    simp only [phaseOf?, hvacant, Option.map_none, hpids, IdPool.ofPids, IdPool.fresh,
      Limits.firstPid, ne_eq, not_true_eq_false, List.not_mem_nil, or_self, false_iff]
    omega
  case first_le => simp [hpids, IdPool.ofPids, IdPool.fresh]
  case next_le => simp [hpids, IdPool.ofPids, IdPool.fresh, Limits.firstPid, Limits.pidLimit]
  case limit_eq => simp [hpids, IdPool.ofPids, IdPool.fresh]
  all_goals simp [hvacant, parentOf?, phaseOf?, birthOf?]

end Sound

/-- No process comes in, and none becomes the root. -/
structure Shrinks (before after : Table Waker) : Prop where
  birthOf?_of {pid : Pid} {birth : Nat} (hbirth : after.birthOf? pid = some birth) :
    before.birthOf? pid = some birth
  root_of {root : Pid} (hroot : after.root = some root) : before.root = some root
  births_eq : after.births = before.births

namespace Shrinks

theorem refl (table : Table Waker) : table.Shrinks table := ⟨fun h ↦ h, fun h ↦ h, rfl⟩

variable {before after : Table Waker} {pid other : Pid} {birth : Nat}
  (shrinks : before.Shrinks after)

include shrinks

theorem present_of (hpresent : after.phaseOf? pid ≠ none) : before.phaseOf? pid ≠ none := by
  obtain ⟨phase, hphase⟩ := Option.ne_none_iff_exists'.1 hpresent
  obtain ⟨birth, hbirth⟩ := exists_birthOf? hphase
  obtain ⟨old, hold⟩ := exists_phaseOf? (shrinks.birthOf?_of hbirth)
  rw [hold]
  exact Option.some_ne_none old

theorem birth_lt (sound : before.Sound) (hbirth : after.birthOf? pid = some birth) :
    birth < after.births := by
  rw [shrinks.births_eq]
  exact sound.birth_lt (shrinks.birthOf?_of hbirth)

theorem birth_injective (sound : before.Sound) (hbirth : after.birthOf? pid = some birth)
    (hsame : after.birthOf? other = some birth) : pid = other :=
  sound.birth_injective (shrinks.birthOf?_of hbirth) (shrinks.birthOf?_of hsame)

end Shrinks

end Lifecycle.Table
