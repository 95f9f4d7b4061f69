import Lifecycle.Proofs.Kernel.Ending
import Lifecycle.Proofs.Table.Insertion
import Lifecycle.Proofs.Table.Joining
import Mathlib.Data.Finset.Card

/-!
# Parked wakers

How many processes somebody is parked on with one and the same waker. A waker that leaves the table
in order to be used makes that number go down, so it can be used once for every time it was
parked.
-/

namespace Lifecycle.Table

variable {Waker : Type} {table before after : Table Waker} {pid : Pid}

/-- The wakers of all parked joiners, by the processes they are parked on. -/
theorem parked_eq_filterMap (table : Table Waker) :
    table.parked = table.records.keys.filterMap table.wakerOf? := by
  rw [parked, recordList, ← Std.ExtTreeMap.map_fst_toList_eq_keys, List.filterMap_map,
    List.filterMap_map]
  apply List.filterMap_congr
  rintro ⟨key, record⟩ hmem
  have hrecord : table.record? key = some record :=
    Std.ExtTreeMap.mem_toList_iff_getElem?_eq_some.1 hmem
  exact (wakerOf?_of_record? hrecord).symm

theorem mem_keys_of_wakerOf? {waker : Waker} (hwaker : table.wakerOf? pid = some waker) :
    pid ∈ table.records.keys := by
  obtain ⟨record, hrecord, -⟩ := Option.bind_eq_some_iff.1 hwaker
  rw [Std.ExtTreeMap.mem_keys, Std.ExtTreeMap.mem_iff_isSome_getElem?]
  exact Option.isSome_of_eq_some hrecord

/-! ## Who stays parked -/

section Kept

variable {waker : Waker} {other : Pid}

theorem Inserted.waker_kept {parent : Option Pid} {name : String}
    (inserted : before.Inserted after parent name pid)
    (hwaker : after.wakerOf? other = some waker) : before.wakerOf? other = some waker := by
  rw [inserted.wakerOf?_eq] at hwaker
  split at hwaker
  · cases hwaker
  · exact hwaker

theorem Removed.waker_kept (removed : before.Removed after pid)
    (hwaker : after.wakerOf? other = some waker) : before.wakerOf? other = some waker := by
  rw [removed.wakerOf?_eq] at hwaker
  split at hwaker
  · cases hwaker
  · exact hwaker

theorem Ended.waker_kept {status : ExitStatus} {wakers : List Waker} (sound : before.Sound)
    (ended : before.Ended after pid status wakers)
    (hwaker : after.wakerOf? other = some waker) : before.wakerOf? other = some waker := by
  rw [ended.wakerOf?_eq sound] at hwaker
  split at hwaker
  · cases hwaker
  · exact hwaker

theorem waker_kept_setClaim {claim : Option (Claim Waker)} (sound : before.Sound)
    (hclaim : claim.bind (·.waker) ≠ some waker)
    (hwaker : (before.setClaim pid claim).wakerOf? other = some waker) :
    before.wakerOf? other = some waker := by
  rw [wakerOf?_setClaim sound] at hwaker
  split at hwaker
  · obtain ⟨-, -, hsame⟩ := Option.bind_eq_some_iff.1 hwaker
    exact absurd hsame hclaim
  · exact hwaker

end Kept

/-! ## How many are parked with one waker -/

section Count

variable [DecidableEq Waker] (waker : Waker)

/-- The processes that somebody is parked on with a waker. -/
def targets (table : Table Waker) (waker : Waker) : Finset Pid :=
  table.records.keys.toFinset.filter (table.wakerOf? · = some waker)

theorem mem_targets {waker : Waker} :
    pid ∈ table.targets waker ↔ table.wakerOf? pid = some waker := by
  rw [targets, Finset.mem_filter, List.mem_toFinset]
  exact ⟨fun h ↦ h.2, fun h ↦ ⟨mem_keys_of_wakerOf? h, h⟩⟩

/-- Wakers that are taken from different processes count less than the processes. -/
theorem count_add_card_le {pids : List Pid} (hdistinct : pids.Nodup)
    (htaken : ∀ pid ∈ pids, after.wakerOf? pid = none)
    (hkept : ∀ pid, after.wakerOf? pid = some waker → before.wakerOf? pid = some waker) :
    (pids.filterMap before.wakerOf?).count waker + (after.targets waker).card ≤
      (before.targets waker).card := by
  let taken := pids.filter (before.wakerOf? · = some waker)
  have hcount : (pids.filterMap before.wakerOf?).count waker = taken.toFinset.card := by
    rw [List.toFinset_card_of_nodup (hdistinct.filter _), List.count_filterMap,
      List.countP_eq_length_filter]
    refine congrArg List.length (List.filter_congr fun pid _ ↦ ?_)
    rw [Bool.eq_iff_iff, beq_iff_eq, decide_eq_true_iff]
  have hdisjoint : Disjoint taken.toFinset (after.targets waker) := by
    rw [Finset.disjoint_left]
    intro pid hmem htarget
    have hnone := htaken pid (List.mem_of_mem_filter (List.mem_toFinset.1 hmem))
    rw [mem_targets, hnone] at htarget
    cases htarget
  rw [hcount, ← Finset.card_union_of_disjoint hdisjoint]
  apply Finset.card_le_card
  intro pid hmem
  rw [Finset.mem_union] at hmem
  obtain htake | htarget := hmem
  · have hpair := List.mem_filter.1 (List.mem_toFinset.1 htake)
    exact mem_targets.2 (of_decide_eq_true hpair.2)
  · exact mem_targets.2 (hkept pid (mem_targets.1 htarget))

/-- If nobody comes to be parked, the number of targets does not go up. -/
theorem card_targets_le
    (hkept : ∀ pid, after.wakerOf? pid = some waker → before.wakerOf? pid = some waker) :
    (after.targets waker).card ≤ (before.targets waker).card :=
  Finset.card_le_card fun pid hmem ↦ mem_targets.2 (hkept pid (mem_targets.1 hmem))

theorem targets_vacated (table : Table Waker) : table.vacated.targets waker = ∅ := by
  ext pid
  simp [mem_targets, wakerOf?]

theorem count_parked : table.parked.count waker ≤ (table.targets waker).card := by
  rw [parked_eq_filterMap]
  calc
    _ ≤ _ + (table.vacated.targets waker).card := Nat.le_add_right _ _
    _ ≤ (table.targets waker).card := by
      apply count_add_card_le waker table.records.nodup_keys
      · exact fun pid _ ↦ by simp [wakerOf?]
      · exact fun pid hwaker ↦ by simp [wakerOf?] at hwaker

theorem Ended.count {status : ExitStatus} {wakers : List Waker} (sound : before.Sound)
    (ended : before.Ended after pid status wakers) :
    wakers.count waker + (after.targets waker).card ≤ (before.targets waker).card := by
  have hwakerOf := ended.wakerOf?_eq sound
  have hwakers : wakers = (pid :: before.childrenOf pid).filterMap before.wakerOf? := by
    rw [ended.wakers_eq, List.filterMap_cons]
    cases before.wakerOf? pid <;> rfl
  rw [hwakers]
  refine count_add_card_le waker ?_ ?_ ?_
  · refine List.nodup_cons.2 ⟨fun hmem ↦ ?_, nodup_childrenOf before pid⟩
    exact sound.parent_ne pid (sound.mem_childrenOf.1 hmem)
  · intro other hmem
    rw [hwakerOf, if_pos]
    obtain hself | hchild := List.mem_cons.1 hmem
    · exact .inl hself
    · exact .inr (sound.mem_childrenOf.1 hchild)
  · exact fun other hwaker ↦ ended.waker_kept sound hwaker

end Count

end Lifecycle.Table
