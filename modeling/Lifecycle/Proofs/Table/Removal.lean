import Lifecycle.Proofs.Table.Soundness
import Lifecycle.Proofs.Yield
import Lifecycle.Table.Insertion
import Lifecycle.Table.Reaping

/-!
# Taking a record out

Reaping an exited process and withdrawing one whose load failed leave the same table but for the
count of running processes. `Removed` describes that table.
-/

namespace Lifecycle.Table

variable {Waker : Type} {table before after : Table Waker} {pid : Pid} {record : Record Waker}

/-- The table without the record of a process, whose id goes back to the pool. -/
def without (table : Table Waker) (pid : Pid) (parent : Option Pid) : Table Waker :=
  { ((table.erase pid).unlink parent pid).unsetRoot pid with pids := table.pids.released pid }

/-- How the table changes when the record of a process is taken out. -/
structure Removed (before after : Table Waker) (pid : Pid) : Prop where
  present : before.record? pid ≠ none
  childless (child : Pid) : ¬ before.HasChild pid child
  record?_eq (other : Pid) :
    after.record? other =
      if other = pid then none
      else if before.parentOf? pid = some other then
        (before.record? other).map (·.withoutChild pid)
      else before.record? other
  root_eq : after.root = before.root.filter (· ≠ pid)
  births_eq : after.births = before.births
  pids_eq : after.pids = before.pids.released pid
  size_eq : after.size + 1 = before.size

/-- Taking a child off a set touches nothing but the records. -/
theorem unlink_eq (table : Table Waker) (parent : Option Pid) (child : Pid) :
    ∃ records, table.unlink parent child = { table with records } := by
  unfold unlink
  split <;> exact ⟨_, rfl⟩

theorem record?_unlink (table : Table Waker) {parent : Option Pid} {child : Pid}
    (hstored : ∀ holder record, parent = some holder → table.record? holder = some record →
      record.pid = holder) (other : Pid) :
    (table.unlink parent child).record? other =
      if parent = some other then (table.record? other).map (·.withoutChild child)
      else table.record? other := by
  unfold unlink
  split
  · next record hrecord =>
    obtain ⟨holder, rfl, hholder⟩ := Option.bind_eq_some_iff.1 hrecord
    have hpid := hstored holder record rfl hholder
    rw [record?_put]
    change (if record.pid = other then some (record.withoutChild child) else _) = _
    grind
  · next hnone => grind

theorem size_unlink (table : Table Waker) {parent : Option Pid} {child : Pid}
    (hstored : ∀ holder record, parent = some holder → table.record? holder = some record →
      record.pid = holder) :
    (table.unlink parent child).size = table.size := by
  unfold unlink
  split
  · next record hrecord =>
    obtain ⟨holder, rfl, hholder⟩ := Option.bind_eq_some_iff.1 hrecord
    apply size_put_of_present _ _
    change table.record? record.pid ≠ none
    rw [hstored holder record rfl hholder, hholder]
    exact Option.some_ne_none record
  · rfl

theorem running_without (table : Table Waker) (pid : Pid) (parent : Option Pid) :
    (table.without pid parent).running = table.running := by
  obtain ⟨records, hrecords⟩ := unlink_eq (table.erase pid) parent pid
  rw [without, hrecords]
  rfl

theorem removed_without (hrecord : before.record? pid = some record)
    (hchildless : record.children = ∅) (hself : record.parent ≠ some pid)
    (hstored : ∀ holder other, before.record? holder = some other → other.pid = holder) :
    before.Removed (before.without pid record.parent) pid := by
  have herased (holder : Pid) (other : Record Waker) (_ : record.parent = some holder)
      (hother : (before.erase pid).record? holder = some other) : other.pid = holder := by
    rw [record?_erase] at hother
    split at hother
    · cases hother
    · exact hstored holder other hother
  have hpresent : before.record? pid ≠ none := by simp [hrecord]
  obtain ⟨records, hrecords⟩ := unlink_eq (before.erase pid) record.parent pid
  refine ⟨hpresent, ?_, ?_, ?_, ?_, rfl, ?_⟩
  · intro child hchild
    rw [hasChild_iff_of_record? hrecord, hchildless] at hchild
    exact Std.ExtTreeSet.not_mem_empty hchild
  · intro other
    rw [parentOf?_of_record? hrecord]
    change ((before.erase pid).unlink record.parent pid).record? other = _
    rw [record?_unlink (before.erase pid) herased, record?_erase]
    grind
  · rw [without, hrecords]
    rfl
  · rw [without, hrecords]
    rfl
  · rw [← size_erase_of_present hpresent]
    exact congrArg (· + 1) (size_unlink (before.erase pid) herased)

theorem releasePid_yields (hout : table.pids.IsOut pid) :
    (Action.releasePid pid).Yields table (.ok ())
      { table with pids := table.pids.released pid } [] := by
  apply Action.yields_of_run [] rfl
  intro effects
  simp [Action.releasePid, IdPool.release_of_isOut hout, Outcome.ofResult]

theorem countEnded_yields (hrunning : table.running ≠ 0) :
    Action.countEnded.Yields table (.ok ()) { table with running := table.running - 1 } [] := by
  obtain ⟨running, hsucc⟩ := Nat.exists_eq_succ_of_ne_zero hrunning
  apply Action.yields_of_run [] rfl
  intro effects
  simp [Action.countEnded, hsucc, Outcome.ofResult]

theorem countEnded_faults (hrunning : table.running = 0) : Action.countEnded.Faults table := by
  intro effects
  exact ⟨.countBelowZero, ⟨table, effects⟩, by simp [Action.countEnded, hrunning]⟩

/-- An exited process that nobody is parked on is reaped. -/
theorem reap_yields {status : ExitStatus} (hrecord : table.record? pid = some record)
    (hexited : record.phase = .exited status) (hunparked : record.waker? = none)
    (hchildless : record.children = ∅) (hout : table.pids.IsOut pid) :
    (reap pid).Yields table (.ok status) (table.without pid record.parent) [] := by
  have hempty : record.children.isEmpty = true := by rw [hchildless]; rfl
  obtain ⟨records, hrecords⟩ := unlink_eq (table.erase pid) record.parent pid
  unfold reap
  apply Action.Yields.bind_silent (Action.yields_table table)
  simp only [hrecord, hexited, hunparked, hempty]
  apply Action.Yields.bind_silent (Action.yields_update _ _)
  apply Action.Yields.bind_silent (Action.yields_update _ _)
  apply Action.Yields.bind_silent (Action.yields_update _ _)
  refine .bind_silent (releasePid_yields ?_) ?_
  · rw [hrecords]
    exact hout
  apply Action.Yields.bind_silent (Action.yields_note _ _)
  rw [without, hrecords]
  exact Action.yields_pure _ _

theorem withdraw_absent (habsent : table.record? pid = none) :
    (withdraw pid).Yields table (.ok none) table [] := by
  unfold withdraw
  apply Action.Yields.bind_silent (Action.yields_table table)
  simp only [habsent]
  exact Action.yields_pure _ _

theorem withdraw_yields (hrecord : table.record? pid = some record)
    (hchildless : record.children = ∅) (hrunning : table.running ≠ 0)
    (hout : table.pids.IsOut pid) :
    (withdraw pid).Yields table (.ok record.waker?)
      { table.without pid record.parent with running := table.running - 1 } [] := by
  have hempty : record.children.isEmpty = true := by rw [hchildless]; rfl
  obtain ⟨records, hrecords⟩ := unlink_eq (table.erase pid) record.parent pid
  unfold withdraw
  apply Action.Yields.bind_silent (Action.yields_table table)
  simp only [hrecord, hempty, if_true]
  apply Action.Yields.bind_silent (Action.yields_update _ _)
  refine .bind_silent (.holding _ (?_ : Action.Yields _ _ (.ok ()) _ _)) (Action.yields_pure _ _)
  apply Action.Yields.bind_silent (Action.yields_update _ _)
  apply Action.Yields.bind_silent (Action.yields_update _ _)
  refine .bind_silent (countEnded_yields ?_) ?_
  · rw [hrecords]
    exact hrunning
  refine .bind_silent (releasePid_yields ?_) ?_
  · rw [hrecords]
    exact hout
  rw [without, hrecords]
  exact Action.yields_note _ _

theorem withdraw_faults (hrecord : table.record? pid = some record)
    (hbad : record.children ≠ ∅ ∨ table.running = 0) : (withdraw pid).Faults table := by
  obtain ⟨records, hrecords⟩ := unlink_eq (table.erase pid) record.parent pid
  unfold withdraw
  apply Action.Yields.bind_faults (Action.yields_table table)
  simp only [hrecord]
  apply Action.Yields.bind_faults (Action.yields_update _ _)
  refine Action.Faults.bind (Action.Faults.holding _ ?_)
  by_cases hempty : record.children.isEmpty = true
  · have hrunning : table.running = 0 :=
      hbad.resolve_left (not_not_intro (Std.ExtTreeSet.isEmpty_iff.1 hempty))
    simp only [hempty, if_true]
    apply Action.Yields.bind_faults (Action.yields_update _ _)
    apply Action.Yields.bind_faults (Action.yields_update _ _)
    refine Action.Faults.bind (countEnded_faults ?_)
    rw [hrecords]
    exact hrunning
  · simp only [hempty]
    exact Action.Faults.bind (Action.faults_fault _ _)

namespace Removed

variable (removed : before.Removed after pid)

include removed

/-- A view that does not show children changes for the removed process only. -/
theorem view_eq {β : Type} (view : Record Waker → Option β)
    (hview : ∀ record, view (record.withoutChild pid) = view record) (other : Pid) :
    (after.record? other).bind view =
      if other = pid then none else (before.record? other).bind view := by
  rw [removed.record?_eq]
  split
  · rfl
  split
  · rw [Option.bind_map]
    exact congrArg _ (funext hview)
  · rfl

theorem parentOf?_eq (other : Pid) :
    after.parentOf? other = if other = pid then none else before.parentOf? other :=
  removed.view_eq (·.parent) (fun _ ↦ rfl) other

theorem parentOf?_of {child parent : Pid} (hparent : after.parentOf? child = some parent) :
    before.parentOf? child = some parent := by
  rw [removed.parentOf?_eq] at hparent
  split at hparent
  · cases hparent
  · exact hparent

theorem claimOf?_eq (other : Pid) :
    after.claimOf? other = if other = pid then none else before.claimOf? other :=
  removed.view_eq (·.claim) (fun _ ↦ rfl) other

theorem wakerOf?_eq (other : Pid) :
    after.wakerOf? other = if other = pid then none else before.wakerOf? other :=
  removed.view_eq (·.waker?) (fun _ ↦ rfl) other

theorem phaseOf?_eq (other : Pid) :
    after.phaseOf? other = if other = pid then none else before.phaseOf? other := by
  rw [phaseOf?, phaseOf?, Option.map_eq_bind, Option.map_eq_bind]
  exact removed.view_eq _ (fun _ ↦ rfl) other

theorem birthOf?_eq (other : Pid) :
    after.birthOf? other = if other = pid then none else before.birthOf? other := by
  rw [birthOf?, birthOf?, Option.map_eq_bind, Option.map_eq_bind]
  exact removed.view_eq _ (fun _ ↦ rfl) other

theorem hasChild_iff (sound : before.Sound) (holder child : Pid) :
    after.HasChild holder child ↔ child ≠ pid ∧ before.HasChild holder child := by
  have hlinks : before.HasChild holder pid ↔ before.parentOf? pid = some holder :=
    sound.hasChild_iff_parentOf?
  have hchildless := removed.childless child
  unfold HasChild at hlinks hchildless ⊢
  rw [removed.record?_eq]
  split
  · next heq =>
    subst heq
    simp [hchildless]
  split
  · next hparent =>
    cases before.record? holder <;> simp
  · next hparent =>
    -- the holder never had the removed process as a child
    refine ⟨fun ⟨record, hrecord, hmem⟩ ↦ ⟨?_, record, hrecord, hmem⟩, fun h ↦ h.2⟩
    rintro rfl
    exact hparent (hlinks.1 ⟨record, hrecord, hmem⟩)

theorem shrinks : before.Shrinks after where
  birthOf?_of {other birth} hbirth := by
    rw [removed.birthOf?_eq] at hbirth
    split at hbirth
    · cases hbirth
    · exact hbirth
  root_of {root} hroot := by
    rw [removed.root_eq, Option.filter_eq_some_iff] at hroot
    exact hroot.1
  births_eq := removed.births_eq

/-- Links fit as before when a record without children is taken out. -/
theorem wellFormed_of_sound (sound : before.Sound) : after.WellFormed := by
  have hparentOf := removed.parentOf?_eq
  have hphaseOf := removed.phaseOf?_eq
  have hlinks (holder child : Pid) :
      before.HasChild holder child ↔ before.parentOf? child = some holder :=
    sound.hasChild_iff_parentOf?
  have hchildless (child : Pid) : before.parentOf? child ≠ some pid :=
    mt (hlinks pid child).2 (removed.childless child)
  constructor
  case hasChild_iff =>
    intro holder child
    apply hasChild_iff_of_links
    rw [removed.hasChild_iff sound, hlinks, hparentOf]
    grind
  case parent_running => grind [sound.parent_running]
  case exited_iff_status => exact fun _ ↦ exited_iff_status_of_phase _
  case exited_childless => grind [sound.exited_childless, removed.hasChild_iff sound]
  case exited_parent => grind [sound.exited_parent]
  case root_running =>
    intro root hkept
    rw [removed.root_eq, Option.filter_eq_some_iff] at hkept
    have hne : root ≠ pid := by simpa using hkept.2
    rw [hphaseOf, hparentOf, if_neg hne, if_neg hne]
    exact sound.root_running hkept.1
  case size_le =>
    have hsize := removed.size_eq
    have hle := sound.size_le
    omega
  case stored =>
    intro other kept hkept
    rw [removed.record?_eq] at hkept
    split at hkept
    · cases hkept
    split at hkept
    · obtain ⟨old, hold, rfl⟩ := Option.map_eq_some_iff.1 hkept
      have hpid := sound.stored hold
      exact hpid
    · exact sound.stored hkept

/-- The id of the removed process is free, and all others are accounted for as before. -/
theorem sound (sound : before.Sound) : after.Sound := by
  have hparentOf := removed.parentOf?_eq
  have hphaseOf := removed.phaseOf?_eq
  have hwakerOf := removed.wakerOf?_eq
  obtain ⟨record, hrecord⟩ := Option.ne_none_iff_exists'.1 removed.present
  have hout := sound.isOut hrecord
  have hnext : after.pids.next = before.pids.next := by simp [removed.pids_eq]
  have hlimit : after.pids.limit = before.pids.limit := by simp [removed.pids_eq]
  have hfreed : after.pids.freed = pid :: before.pids.freed := by
    rw [removed.pids_eq, IdPool.freed_released hout]
  constructor
  case toWellFormed => exact removed.wellFormed_of_sound sound
  case parent_ne => grind [sound.parent_ne]
  case exited_unparked => grind [sound.exited_unparked]
  case accounted =>
    intro other
    have haccounted := sound.accounted other
    have hpid := (sound.accounted pid).1 (.inl (by simp [phaseOf?, hrecord]))
    grind
  case freed_absent => grind [sound.freed_absent]
  case first_le => exact hnext ▸ sound.first_le
  case next_le => exact hnext ▸ sound.next_le
  case limit_eq => exact hlimit.trans sound.limit_eq
  case birth_lt => exact removed.shrinks.birth_lt sound
  case birth_injective => exact removed.shrinks.birth_injective sound

end Removed

end Lifecycle.Table
