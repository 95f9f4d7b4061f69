import Lifecycle.Table.Basic

/-!
# Views of the process table

What the records say about one process at a time. The operations on the table are described by
what they do to these views.
-/

namespace Lifecycle

variable {Waker : Type}

namespace Record

def withChild (record : Record Waker) (child : Pid) : Record Waker :=
  { record with children := record.children.insert child }

def withoutChild (record : Record Waker) (child : Pid) : Record Waker :=
  { record with children := record.children.erase child }

def withClaim (record : Record Waker) (claim : Option (Claim Waker)) : Record Waker :=
  { record with claim }

@[simp]
theorem mem_children_withChild (record : Record Waker) (child other : Pid) :
    other ∈ (record.withChild child).children ↔ other = child ∨ other ∈ record.children := by
  simp [withChild, Std.ExtTreeSet.mem_insert, eq_comm (a := other)]

@[simp]
theorem mem_children_withoutChild (record : Record Waker) (child other : Pid) :
    other ∈ (record.withoutChild child).children ↔ other ≠ child ∧ other ∈ record.children := by
  simp [withoutChild, Std.ExtTreeSet.mem_erase, eq_comm (a := other)]

end Record

namespace Table

def parentOf? (table : Table Waker) (pid : Pid) : Option Pid := (table.record? pid).bind (·.parent)

def phaseOf? (table : Table Waker) (pid : Pid) : Option Phase := (table.record? pid).map (·.phase)

def birthOf? (table : Table Waker) (pid : Pid) : Option Nat := (table.record? pid).map (·.birth)

def claimOf? (table : Table Waker) (pid : Pid) : Option (Claim Waker) :=
  (table.record? pid).bind (·.claim)

/-- The waker of the joiner that is parked on a process. -/
def wakerOf? (table : Table Waker) (pid : Pid) : Option Waker :=
  (table.record? pid).bind (·.waker?)

def HasChild (table : Table Waker) (parent child : Pid) : Prop :=
  ∃ record, table.record? parent = some record ∧ child ∈ record.children

variable {table : Table Waker} {pid : Pid} {record : Record Waker}

theorem isRunning_iff_phaseOf? : table.IsRunning pid ↔ table.phaseOf? pid = some .running :=
  Option.map_eq_some_iff.symm

/-- Only a record has a phase. -/
theorem phaseOf?_eq_none_iff : table.phaseOf? pid = none ↔ table.record? pid = none :=
  Option.map_eq_none_iff

theorem wakerOf?_eq_bind_claimOf? (table : Table Waker) (pid : Pid) :
    table.wakerOf? pid = (table.claimOf? pid).bind (·.waker) :=
  (Option.bind_assoc (table.record? pid) _ _).symm

theorem parentOf?_of_record? (hrecord : table.record? pid = some record) :
    table.parentOf? pid = record.parent := by
  rw [parentOf?, hrecord, Option.bind_some]

theorem phaseOf?_of_record? (hrecord : table.record? pid = some record) :
    table.phaseOf? pid = some record.phase := by
  rw [phaseOf?, hrecord, Option.map_some]

theorem birthOf?_of_record? (hrecord : table.record? pid = some record) :
    table.birthOf? pid = some record.birth := by
  rw [birthOf?, hrecord, Option.map_some]

theorem exists_birthOf? {phase : Phase} (hphase : table.phaseOf? pid = some phase) :
    ∃ birth, table.birthOf? pid = some birth := by
  obtain ⟨record, hrecord, -⟩ := Option.map_eq_some_iff.1 hphase
  exact ⟨record.birth, birthOf?_of_record? hrecord⟩

theorem exists_phaseOf? {birth : Nat} (hbirth : table.birthOf? pid = some birth) :
    ∃ phase, table.phaseOf? pid = some phase := by
  obtain ⟨record, hrecord, -⟩ := Option.map_eq_some_iff.1 hbirth
  exact ⟨record.phase, phaseOf?_of_record? hrecord⟩

theorem claimOf?_of_record? (hrecord : table.record? pid = some record) :
    table.claimOf? pid = record.claim := by
  rw [claimOf?, hrecord, Option.bind_some]

theorem wakerOf?_of_record? (hrecord : table.record? pid = some record) :
    table.wakerOf? pid = record.waker? := by
  rw [wakerOf?, hrecord, Option.bind_some]

theorem hasChild_iff_of_record? (hrecord : table.record? pid = some record) {child : Pid} :
    table.HasChild pid child ↔ child ∈ record.children := by
  constructor
  · rintro ⟨same, hsame, hmem⟩
    rw [hrecord] at hsame
    cases hsame
    exact hmem
  · exact fun hmem ↦ ⟨record, hrecord, hmem⟩

theorem children_eq_empty (hrecord : table.record? pid = some record)
    (hchildless : ∀ child, ¬ table.HasChild pid child) : record.children = ∅ := by
  apply Std.ExtTreeSet.eq_empty_iff_forall_not_mem.2
  intro child hmem
  exact hchildless child ((hasChild_iff_of_record? hrecord).2 hmem)

/-- Storing a record under an id that has one does not change the number of records. -/
theorem size_put_of_present (table : Table Waker) (record : Record Waker)
    (hpresent : table.record? record.pid ≠ none) :
    (table.put record).size = table.size := by
  have hmem : record.pid ∈ table.records := by
    rw [Std.ExtTreeMap.mem_iff_isSome_getElem?]
    simpa [record?, Option.isSome_iff_ne_none] using hpresent
  simp [size, put, Std.ExtTreeMap.size_insert, hmem]

theorem size_put_of_absent (table : Table Waker) (record : Record Waker)
    (habsent : table.record? record.pid = none) :
    (table.put record).size = table.size + 1 := by
  have hmem : record.pid ∉ table.records := by
    rw [Std.ExtTreeMap.mem_iff_isSome_getElem?]
    simpa [record?] using habsent
  simp [size, put, Std.ExtTreeMap.size_insert, hmem]

theorem size_erase_of_present (hpresent : table.record? pid ≠ none) :
    (table.erase pid).size + 1 = table.size := by
  have hmem : pid ∈ table.records := by
    rw [Std.ExtTreeMap.mem_iff_isSome_getElem?]
    simpa [record?, Option.isSome_iff_ne_none] using hpresent
  have hne : table.records ≠ ∅ := Std.ExtTreeMap.ne_empty_of_mem hmem
  have hpos : table.records.size ≠ 0 := mt Std.ExtTreeMap.eq_empty_iff_size_eq_zero.2 hne
  have hcontains : table.records.contains pid = true := hmem
  simp only [size, erase, Std.ExtTreeMap.size_erase, hcontains, if_true]
  omega

end Table

end Lifecycle
