import Lifecycle.Proofs.Table.Soundness
import Lifecycle.Proofs.Yield
import Lifecycle.Table.Insertion

/-!
# Taking a process in
-/

namespace Lifecycle.Table

variable {Waker : Type} {before after : Table Waker} {parent : Option Pid} {name : String}
  {pid : Pid}

/-- Why a process is not taken in. -/
inductive Declines (table : Table Waker) : Option Pid → Errno → Prop where
  | full (parent : Option Pid) (hfull : Limits.maxProcesses ≤ table.size) :
      table.Declines parent .EAGAIN
  | stopped {parent : Pid} (hroom : table.size < Limits.maxProcesses)
      (hstopped : ¬ table.IsRunning parent) : table.Declines (some parent) .ESRCH
  | rooted (hroom : table.size < Limits.maxProcesses) (hroot : table.root ≠ none) :
      table.Declines none .EPERM

/-- How the table changes when a process is taken in under an id. -/
structure Inserted (before after : Table Waker) (parent : Option Pid) (name : String)
    (pid : Pid) : Prop where
  room : before.size < Limits.maxProcesses
  parent_running {holder : Pid} (hparent : parent = some holder) : before.IsRunning holder
  rootless (hparent : parent = none) : before.root = none
  taken : before.pids.take? = some (pid, after.pids)
  absent : before.record? pid = none
  record?_eq (other : Pid) :
    after.record? other =
      if other = pid then some (.fresh pid before.births name parent)
      else if parent = some other then (before.record? other).map (·.withChild pid)
      else before.record? other
  root_eq : after.root = if parent = none then some pid else before.root
  running_eq : after.running = before.running + 1
  births_eq : after.births = before.births + 1
  size_eq : after.size = before.size + 1

theorem insert_declines {cause : Errno} (hdeclines : before.Declines parent cause) :
    (insert parent name).Yields before (.error cause) before [] := by
  cases hdeclines with
  | full _ hfull =>
    apply Action.yields_of_run [.note .processLimitReached] rfl
    intro effects
    simp [insert, hfull, Outcome.ofResult]
  | stopped hroom hstopped =>
    apply Action.yields_of_run [] rfl
    intro effects
    simp [insert, Nat.not_le.2 hroom, hstopped, Outcome.ofResult]
  | rooted hroom hroot =>
    apply Action.yields_of_run [] rfl
    intro effects
    simp [insert, Nat.not_le.2 hroom, Option.isSome_iff_ne_none.2 hroot, Outcome.ofResult]

theorem addChild_yields {table : Table Waker} {parent : Pid} {record : Record Waker}
    (hrecord : table.record? parent = some record) (child : Pid) :
    (Action.addChild parent child).Yields table (.ok ())
      (table.put (record.withChild child)) [] := by
  apply Action.yields_of_run [] rfl
  intro effects
  simp [Action.addChild, Action.linkedRecord, hrecord, Outcome.ofResult, Record.withChild]

theorem insert_under (sound : before.Sound) {holder : Pid} {pids : IdPool}
    (hroom : before.size < Limits.maxProcesses) (hrunning : before.IsRunning holder)
    (htake : before.pids.take? = some (pid, pids)) (habsent : before.record? pid = none) :
    ∃ after, before.Inserted after (some holder) name pid ∧
      (insert (some holder) name).Yields before (.ok pid) after [] := by
  obtain ⟨record, hrecord, -⟩ := id hrunning
  rw [Option.mem_def] at hrecord
  have hpid : record.pid = holder := sound.stored hrecord
  have hne : pid ≠ holder := fun heq ↦ by simp [heq, hrecord] at habsent
  let fresh : Record Waker := .fresh pid before.births name (some holder)
  let stored : Table Waker := { { before with pids }.put fresh with births := before.births + 1 }
  have hstored (other : Pid) :
      stored.record? other = if pid = other then some fresh else before.record? other :=
    record?_put _ fresh other
  have hholder : stored.record? holder = some record := by
    rw [hstored, if_neg hne, hrecord]
  let after : Table Waker :=
    { stored.put (record.withChild pid) with running := before.running + 1 }
  have hafter (other : Pid) :
      after.record? other =
        if holder = other then some (record.withChild pid) else stored.record? other := by
    rw [← hpid]
    exact record?_put stored (record.withChild pid) other
  refine ⟨after, ⟨hroom, ?_, nofun, htake, habsent, ?_, rfl, rfl, rfl, ?_⟩, ?_⟩
  · rintro _ ⟨⟩
    exact hrunning
  · intro other
    rw [hafter, hstored]
    grind
  · have hsize : stored.size = before.size + 1 :=
      size_put_of_absent { before with pids } fresh habsent
    rw [← hsize]
    apply size_put_of_present stored (record.withChild pid)
    change stored.record? record.pid ≠ none
    rw [hpid, hholder]
    exact Option.some_ne_none record
  · unfold insert
    apply Action.Yields.bind_silent (Action.yields_table before)
    simp only [if_neg (Nat.not_le.2 hroom), hrunning, not_true_eq_false, if_false, htake,
      habsent, Option.isSome_none, Bool.false_eq_true]
    apply Action.Yields.bind_silent (Action.yields_update _ _)
    apply Action.Yields.bind_silent (Action.yields_update _ _)
    apply Action.Yields.bind_silent (addChild_yields hholder pid)
    apply Action.Yields.bind_silent (Action.yields_update _ _)
    apply Action.Yields.bind_silent (Action.yields_note _ _)
    exact Action.yields_pure _ _

theorem insert_root {pids : IdPool} (hroom : before.size < Limits.maxProcesses)
    (hroot : before.root = none) (htake : before.pids.take? = some (pid, pids))
    (habsent : before.record? pid = none) :
    ∃ after, before.Inserted after none name pid ∧
      (insert none name).Yields before (.ok pid) after [] := by
  let fresh : Record Waker := .fresh pid before.births name none
  let stored : Table Waker := { { before with pids }.put fresh with births := before.births + 1 }
  refine ⟨{ stored with root := some pid, running := before.running + 1 },
    ⟨hroom, nofun, fun _ ↦ hroot, htake, habsent, ?_, rfl, rfl, rfl, ?_⟩, ?_⟩
  · intro other
    have hstored := record?_put { before with pids } fresh other
    simp only [reduceCtorEq, if_false, @eq_comm _ other]
    exact hstored
  · exact size_put_of_absent { before with pids } fresh habsent
  · unfold insert
    apply Action.Yields.bind_silent (Action.yields_table before)
    simp only [if_neg (Nat.not_le.2 hroom), hroot, Option.isSome_none, Bool.false_eq_true,
      if_false, htake, habsent]
    apply Action.Yields.bind_silent (Action.yields_update _ _)
    apply Action.Yields.bind_silent (Action.yields_update _ _)
    apply Action.Yields.bind_silent (Action.yields_update _ _)
    apply Action.Yields.bind_silent (Action.yields_update _ _)
    apply Action.Yields.bind_silent (Action.yields_note _ _)
    exact Action.yields_pure _ _

/-- A table with room never runs out of ids. -/
theorem Sound.take?_ne_none (sound : before.Sound) (hroom : before.size < Limits.maxProcesses) :
    before.pids.take? ≠ none := by
  intro hnone
  obtain ⟨hused, hfreed⟩ := IdPool.take?_eq_none_iff.1 hnone
  rw [sound.limit_eq] at hused
  -- every id belongs to a record then, and there are more ids than records
  have hsubset : List.range' Limits.firstPid (Limits.pidLimit - Limits.firstPid) ⊆
      before.records.keys := by
    intro pid hpid
    rw [List.mem_range'_1] at hpid
    have hlimit : Limits.firstPid ≤ Limits.pidLimit := by decide
    have haccounted := (sound.accounted pid).2 ⟨hpid.1, by omega⟩
    rw [hfreed] at haccounted
    have hrecord : before.record? pid ≠ none := by simpa [phaseOf?_eq_none_iff] using haccounted
    rw [Std.ExtTreeMap.mem_keys, Std.ExtTreeMap.mem_iff_isSome_getElem?,
      Option.isSome_iff_ne_none]
    exact hrecord
  have hlength := List.Nodup.length_le_of_subset List.nodup_range' hsubset
  rw [List.length_range', Std.ExtTreeMap.length_keys] at hlength
  have hmany : Limits.maxProcesses < Limits.pidLimit - Limits.firstPid := by decide
  have hsize : before.records.size < Limits.maxProcesses := hroom
  omega

/-- An id that the pool hands out has no record. -/
theorem Sound.absent_of_take? (sound : before.Sound) {pids : IdPool}
    (htake : before.pids.take? = some (pid, pids)) : before.record? pid = none := by
  obtain ⟨-, rfl, -⟩ | ⟨-, hfreed, -⟩ := IdPool.take?_eq_some htake
  · apply Option.eq_none_iff_forall_ne_some.2
    intro record hrecord
    exact Nat.lt_irrefl _ (sound.isOut hrecord).1
  · exact phaseOf?_eq_none_iff.1 (sound.freed_absent (hfreed ▸ List.mem_cons_self))

theorem insert_spec (sound : before.Sound) (parent : Option Pid) (name : String) :
    (∃ cause, before.Declines parent cause ∧
      (insert parent name).Yields before (.error cause) before []) ∨
    ∃ pid after, before.Inserted after parent name pid ∧
      (insert parent name).Yields before (.ok pid) after [] := by
  have hdeclines {cause : Errno} (h : before.Declines parent cause) :
      ∃ cause, before.Declines parent cause ∧
        (insert parent name).Yields before (.error cause) before [] :=
    ⟨cause, h, insert_declines h⟩
  by_cases hfull : Limits.maxProcesses ≤ before.size
  · exact .inl (hdeclines (.full parent hfull))
  have hroom := Nat.not_le.1 hfull
  obtain ⟨⟨pid, pids⟩, htake⟩ := Option.ne_none_iff_exists'.1 (sound.take?_ne_none hroom)
  have habsent := sound.absent_of_take? htake
  cases parent with
  | some holder =>
    by_cases hrunning : before.IsRunning holder
    · exact .inr ⟨pid, insert_under sound hroom hrunning htake habsent⟩
    · exact .inl (hdeclines (.stopped hroom hrunning))
  | none =>
    by_cases hroot : before.root = none
    · exact .inr ⟨pid, insert_root hroom hroot htake habsent⟩
    · exact .inl (hdeclines (.rooted hroom hroot))

section Run

variable {effects : List (Effect Waker)} {scene : Scene Waker}

theorem inserted_of_done (sound : before.Sound)
    (hdone : (insert parent name).run ⟨before, effects⟩ = .done pid scene) :
    before.Inserted scene.table parent name pid := by
  obtain ⟨cause, -, hyields⟩ | ⟨taken, after, hinserted, hyields⟩ := insert_spec sound parent name
  · obtain ⟨added, -, hrun⟩ := hyields effects
    rw [hdone] at hrun
    cases hrun
  · obtain ⟨added, -, hrun⟩ := hyields effects
    rw [hdone] at hrun
    cases hrun
    exact hinserted

/-- Whoever is not taken in is turned down, and leaves the table as it was. -/
theorem declines_of_failed (sound : before.Sound) {failure : Failure}
    (hfailed : (insert parent name).run ⟨before, effects⟩ = .failed failure scene) :
    ∃ cause, before.Declines parent cause ∧ failure = .refused cause ∧ scene.table = before := by
  obtain ⟨cause, hdeclines, hyields⟩ | ⟨taken, after, -, hyields⟩ := insert_spec sound parent name
  · obtain ⟨added, -, hrun⟩ := hyields effects
    rw [hfailed] at hrun
    cases hrun
    exact ⟨cause, hdeclines, rfl, rfl⟩
  · obtain ⟨added, -, hrun⟩ := hyields effects
    rw [hfailed] at hrun
    cases hrun

end Run

namespace Inserted

variable (inserted : before.Inserted after parent name pid)

include inserted

/-- A view that does not show children changes for the new process only. -/
theorem view_eq {β : Type} (view : Record Waker → Option β)
    (hview : ∀ record, view (record.withChild pid) = view record) (other : Pid) :
    (after.record? other).bind view =
      if other = pid then view (.fresh pid before.births name parent)
      else (before.record? other).bind view := by
  rw [inserted.record?_eq]
  split
  · rfl
  split
  · rw [Option.bind_map]
    exact congrArg _ (funext hview)
  · rfl

theorem parentOf?_eq (other : Pid) :
    after.parentOf? other = if other = pid then parent else before.parentOf? other :=
  inserted.view_eq (·.parent) (fun _ ↦ rfl) other

theorem claimOf?_eq (other : Pid) :
    after.claimOf? other = if other = pid then none else before.claimOf? other :=
  inserted.view_eq (·.claim) (fun _ ↦ rfl) other

theorem wakerOf?_eq (other : Pid) :
    after.wakerOf? other = if other = pid then none else before.wakerOf? other :=
  inserted.view_eq (·.waker?) (fun _ ↦ rfl) other

theorem phaseOf?_eq (other : Pid) :
    after.phaseOf? other = if other = pid then some .running else before.phaseOf? other := by
  rw [phaseOf?, phaseOf?, Option.map_eq_bind, Option.map_eq_bind]
  exact inserted.view_eq _ (fun _ ↦ rfl) other

theorem birthOf?_eq (other : Pid) :
    after.birthOf? other = if other = pid then some before.births else before.birthOf? other := by
  rw [birthOf?, birthOf?, Option.map_eq_bind, Option.map_eq_bind]
  exact inserted.view_eq _ (fun _ ↦ rfl) other

theorem hasChild_iff (holder child : Pid) :
    after.HasChild holder child ↔
      parent = some holder ∧ child = pid ∨ before.HasChild holder child := by
  have habsent := inserted.absent
  have hrunning := @inserted.parent_running holder
  unfold HasChild
  rw [inserted.record?_eq]
  split
  · next heq =>
    subst heq
    have hno : parent ≠ some holder := by
      rintro rfl
      obtain ⟨record, hrecord, -⟩ := hrunning rfl
      rw [Option.mem_def, habsent] at hrecord
      cases hrecord
    simp [habsent, hno, Record.fresh]
  · split
    · next hparent =>
      obtain ⟨record, hrecord, -⟩ := hrunning hparent
      rw [Option.mem_def] at hrecord
      simp [hrecord, hparent]
    · next hparent => simp [hparent]

/-- A process that is taken in fits to the links there are. -/
theorem wellFormed_of_sound (sound : before.Sound) : after.WellFormed := by
  have hparentOf := inserted.parentOf?_eq
  have hphaseOf := inserted.phaseOf?_eq
  have hvacant : before.phaseOf? pid = none := phaseOf?_eq_none_iff.2 inserted.absent
  have hrunning (holder : Pid) (hparent : parent = some holder) :
      before.phaseOf? holder = some .running :=
    isRunning_iff_phaseOf?.1 (inserted.parent_running hparent)
  have hlinks (holder child : Pid) :
      before.HasChild holder child ↔ before.parentOf? child = some holder :=
    sound.hasChild_iff_parentOf?
  constructor
  case hasChild_iff =>
    intro holder child
    apply hasChild_iff_of_links
    have hself : before.parentOf? pid = none := by simp [parentOf?, inserted.absent]
    rw [inserted.hasChild_iff, hlinks, hparentOf]
    grind
  case parent_running => grind [sound.parent_running]
  case exited_iff_status => exact fun _ ↦ exited_iff_status_of_phase _
  case exited_childless => grind [sound.exited_childless, inserted.hasChild_iff]
  case exited_parent => grind [sound.exited_parent]
  case root_running =>
    have hroot := inserted.root_eq
    grind [sound.root_running, inserted.rootless]
  case size_le =>
    have hroom := inserted.room
    have hsize := inserted.size_eq
    omega
  case stored =>
    intro other record hrecord
    rw [inserted.record?_eq] at hrecord
    split at hrecord
    · next heq =>
      cases hrecord
      exact heq.symm
    split at hrecord
    · obtain ⟨old, hold, rfl⟩ := Option.map_eq_some_iff.1 hrecord
      have hpid := sound.stored hold
      exact hpid
    · exact sound.stored hrecord

/-- The id that was taken from the pool belongs to the new record, which is born last. -/
theorem sound (sound : before.Sound) : after.Sound := by
  have hparentOf := inserted.parentOf?_eq
  have hphaseOf := inserted.phaseOf?_eq
  have hbirthOf := inserted.birthOf?_eq
  have hvacant : before.phaseOf? pid = none := phaseOf?_eq_none_iff.2 inserted.absent
  have hrunning (holder : Pid) (hparent : parent = some holder) :
      before.phaseOf? holder = some .running :=
    isRunning_iff_phaseOf?.1 (inserted.parent_running hparent)
  constructor
  case toWellFormed => exact inserted.wellFormed_of_sound sound
  case parent_ne => grind [sound.parent_ne]
  case exited_unparked => grind [inserted.wakerOf?_eq, sound.exited_unparked]
  case accounted =>
    intro other
    have haccounted := sound.accounted other
    have hfirst := sound.first_le
    have hdistinct := before.pids.freed_nodup
    have htake := IdPool.take?_eq_some inserted.taken
    grind
  case freed_absent =>
    have hdistinct := before.pids.freed_nodup
    have haccounted := sound.accounted
    grind [IdPool.take?_eq_some inserted.taken, sound.freed_absent]
  case first_le => grind [IdPool.take?_eq_some inserted.taken, sound.first_le]
  case next_le => grind [IdPool.take?_eq_some inserted.taken, sound.next_le, sound.limit_eq]
  case limit_eq => grind [IdPool.take?_eq_some inserted.taken, sound.limit_eq]
  case birth_lt =>
    intro other birth hbirth
    rw [hbirthOf] at hbirth
    rw [inserted.births_eq]
    split at hbirth
    · cases hbirth
      exact Nat.lt_succ_self _
    · exact Nat.lt_succ_of_lt (sound.birth_lt hbirth)
  case birth_injective =>
    have hfresh (other : Pid) : before.birthOf? other ≠ some before.births :=
      fun hbirth ↦ Nat.lt_irrefl _ (sound.birth_lt hbirth)
    grind [sound.birth_injective]

end Inserted

end Lifecycle.Table
