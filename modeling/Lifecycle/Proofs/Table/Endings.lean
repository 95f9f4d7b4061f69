import Lifecycle.Proofs.Kernel.Ending
import Lifecycle.Proofs.Table.Count

/-!
# Ending several processes

`AllEnded` describes the table after some processes have ended one after the other. It says which
processes these were and what they ended with, but nothing about their order: whoever had one of
them for a parent ends up with the root, if the root is not among them, whether it was handed on
once or twice. So two tables that are left by the same endings differ in the order of the ids that
were given back at most.
-/

namespace Lifecycle.Table

variable {Waker : Type} {before middle after : Table Waker} {pid other : Pid}
  {status : ExitStatus} {gone : List Pid} {exits : List (Pid × ExitStatus)} {wakers : List Waker}

/-- The process that the children of some processes go to when all of these have ended. -/
def heirOfAll (table : Table Waker) (gone : List Pid) : Option Pid := table.root.filter (· ∉ gone)

/-- Whether a process has a parent among some processes. -/
def HasParentIn (table : Table Waker) (gone : List Pid) (pid : Pid) : Prop :=
  ∃ parent ∈ table.parentOf? pid, parent ∈ gone

instance (table : Table Waker) (gone : List Pid) (pid : Pid) :
    Decidable (table.HasParentIn gone pid) :=
  inferInstanceAs (Decidable (∃ _ ∈ _, _))

/-- The parent of a process when some processes have ended. -/
def parentAfter (table : Table Waker) (gone : List Pid) (pid : Pid) : Option Pid :=
  if table.HasParentIn gone pid then table.heirOfAll gone else table.parentOf? pid

/-- The processes whose slots nobody is parked on any more when some processes have ended. -/
def Unparks (table : Table Waker) (gone : List Pid) (pid : Pid) : Prop :=
  pid ∈ gone ∨ table.HasParentIn gone pid

/-- How the table changes when distinct processes end one after the other, and the joiners that
are to be woken. -/
structure AllEnded (before after : Table Waker) (exits : List (Pid × ExitStatus))
    (wakers : List Waker) : Prop where
  sound : after.Sound
  parentOf?_eq (pid : Pid) : after.parentOf? pid = before.parentAfter (exits.map Prod.fst) pid
  phaseOf?_of_mem {pid : Pid} {status : ExitStatus} (hmem : (pid, status) ∈ exits) :
    after.phaseOf? pid = if after.parentOf? pid = none then none else some (.exited status)
  phaseOf?_of_notMem {pid : Pid} (hnot : pid ∉ exits.map Prod.fst) :
    after.phaseOf? pid =
      if after.parentOf? pid = none ∧ before.phaseOf? pid ≠ some .running then none
      else before.phaseOf? pid
  claimOf?_eq (pid : Pid) :
    after.claimOf? pid =
      if before.HasParentIn (exits.map Prod.fst) pid then none
      else if pid ∈ exits.map Prod.fst then
        if before.parentOf? pid = none then none
        else (before.claimOf? pid).map fun claim ↦ { claim with waker := none }
      else before.claimOf? pid
  /-- Records keep what they are known by. -/
  origin {pid : Pid} {record : Record Waker} (hrecord : after.record? pid = some record) :
    ∃ old, before.record? pid = some old ∧ record.birth = old.birth ∧ record.name = old.name
  root_eq : after.root = before.heirOfAll (exits.map Prod.fst)
  running_eq : after.running + exits.length = before.running
  births_eq : after.births = before.births
  next_eq : after.pids.next = before.pids.next
  wakers_eq : ∃ slots : List Pid, slots.Nodup ∧ wakers = slots.filterMap before.wakerOf? ∧
    ∀ pid, before.wakerOf? pid ≠ none → (pid ∈ slots ↔ before.Unparks (exits.map Prod.fst) pid)

theorem hasParentIn_iff {parent : Pid} (hparent : before.parentOf? pid = some parent) :
    before.HasParentIn gone pid ↔ parent ∈ gone := by
  simp [HasParentIn, hparent]

theorem not_hasParentIn_of_none (hparent : before.parentOf? pid = none) :
    ¬ before.HasParentIn gone pid := by
  simp [HasParentIn, hparent]

theorem parentAfter_of_none (hparent : before.parentOf? pid = none) :
    before.parentAfter gone pid = none := by
  rw [parentAfter, if_neg (not_hasParentIn_of_none hparent), hparent]

/-- Whoever has the root for a parent keeps it, or is left without a parent. -/
theorem parentAfter_of_root (hparent : before.parentOf? pid = before.root) :
    before.parentAfter gone pid = before.heirOfAll gone := by
  rw [parentAfter]
  split
  · rfl
  · next hnot =>
    rw [hparent, heirOfAll]
    cases hroot : before.root with
    | none => rfl
    | some root =>
      rw [hasParentIn_iff (hparent.trans hroot)] at hnot
      rw [Option.filter_some, decide_eq_true hnot, if_pos rfl]

/-! ## One process after the other -/

section Cons

variable (ended : before.Ended middle pid status wakers)

include ended

theorem Ended.heirOfAll_eq (gone : List Pid) :
    middle.heirOfAll gone = before.heirOfAll (pid :: gone) := by
  rw [heirOfAll, heirOfAll, ended.root_eq, heirOf, Option.filter_filter]
  simp only [List.mem_cons, not_or, Bool.decide_and]

theorem Ended.origin {record : Record Waker} (hrecord : middle.record? other = some record) :
    ∃ old, before.record? other = some old ∧ record.birth = old.birth ∧
      record.name = old.name := by
  rw [ended.record?_eq] at hrecord
  split at hrecord
  · next heq =>
    split at hrecord
    · cases hrecord
    · obtain ⟨old, hold, rfl⟩ := Option.map_eq_some_iff.1 hrecord
      exact ⟨old, heq ▸ hold, rfl, rfl⟩
  split at hrecord
  · obtain ⟨old, hold, hkept⟩ := Option.bind_eq_some_iff.1 hrecord
    unfold Record.inheritedBy at hkept
    split at hkept
    · cases hkept
    · cases hkept
      exact ⟨old, hold, rfl, rfl⟩
  split at hrecord
  · obtain ⟨old, hold, rfl⟩ := Option.map_eq_some_iff.1 hrecord
    exact ⟨old, hold, rfl, rfl⟩
  · exact ⟨record, hrecord, rfl, rfl⟩

variable (sound : before.Sound)

include sound

theorem Ended.hasParentIn_of_stranger (hstranger : before.parentOf? other ≠ some pid) :
    middle.HasParentIn gone other ↔ before.HasParentIn (pid :: gone) other := by
  rw [HasParentIn, ended.parentOf?_eq sound, if_neg hstranger, HasParentIn]
  apply exists_congr
  intro parent
  apply and_congr_right
  rintro hparent
  have hne : parent ≠ pid := fun heq ↦ hstranger (heq ▸ hparent)
  rw [List.mem_cons, or_iff_right hne]

theorem Ended.parentAfter_eq (gone : List Pid) (other : Pid) :
    middle.parentAfter gone other = before.parentAfter (pid :: gone) other := by
  by_cases hchild : before.parentOf? other = some pid
  · have hparent : middle.parentOf? other = middle.root := by
      rw [ended.parentOf?_eq sound, if_pos hchild, ended.root_eq]
    have hin : before.HasParentIn (pid :: gone) other :=
      (hasParentIn_iff hchild).2 List.mem_cons_self
    rw [parentAfter_of_root hparent, parentAfter, if_pos hin, ended.heirOfAll_eq]
  · simp only [parentAfter, ended.hasParentIn_of_stranger sound hchild, ended.heirOfAll_eq,
      ended.parentOf?_eq sound, if_neg hchild]

/-- A process whose waker is taken when the first process ends is not parked on again. -/
theorem Ended.slots_eq {slots : List Pid} (hslots : slots.Nodup)
    (hmem : ∀ other, middle.wakerOf? other ≠ none →
      (other ∈ slots ↔ middle.Unparks gone other)) :
    ∃ all : List Pid, all.Nodup ∧
      wakers ++ slots.filterMap middle.wakerOf? = all.filterMap before.wakerOf? ∧
      ∀ other, before.wakerOf? other ≠ none →
        (other ∈ all ↔ before.Unparks (pid :: gone) other) := by
  have hwakerOf := ended.wakerOf?_eq sound
  have hchildren (other : Pid) :
      other ∈ before.childrenOf pid ↔ before.parentOf? other = some pid :=
    sound.mem_childrenOf
  let first : List Pid := pid :: before.childrenOf pid
  let later : List Pid := slots.filter fun other ↦ (middle.wakerOf? other).isSome
  have hfirst (other : Pid) : other ∈ first ↔ other = pid ∨ before.parentOf? other = some pid := by
    rw [List.mem_cons, hchildren]
  have hlater (other : Pid) : other ∈ later ↔ other ∈ slots ∧ middle.wakerOf? other ≠ none := by
    rw [List.mem_filter, Option.isSome_iff_ne_none]
  refine ⟨first ++ later, ?_, ?_, ?_⟩
  · have hself : pid ∉ before.childrenOf pid := fun h ↦ sound.parent_ne pid ((hchildren pid).1 h)
    refine List.nodup_append'.2 ⟨List.nodup_cons.2 ⟨hself, nodup_childrenOf before pid⟩,
      hslots.filter _, ?_⟩
    intro other hearly hlate
    rw [hfirst] at hearly
    exact ((hlater other).1 hlate).2 (by rw [hwakerOf, if_pos hearly])
  · have hkept : slots.filterMap middle.wakerOf? = later.filterMap before.wakerOf? := by
      rw [List.filterMap_filter]
      apply List.filterMap_congr
      intro other _
      rw [hwakerOf]
      split
      · rfl
      · cases before.wakerOf? other <;> rfl
    rw [ended.wakers_eq, hkept, List.filterMap_append, List.filterMap_cons]
    cases before.wakerOf? pid <;> rfl
  · intro other hwaker
    rw [List.mem_append, hfirst, hlater, Unparks]
    by_cases hearly : other = pid ∨ before.parentOf? other = some pid
    · refine iff_of_true (.inl hearly) (hearly.imp ?_ fun hchild ↦ ?_)
      · rintro rfl
        exact List.mem_cons_self
      · exact (hasParentIn_iff hchild).2 List.mem_cons_self
    · have hstill : middle.wakerOf? other ≠ none := by rwa [hwakerOf, if_neg hearly]
      rw [or_iff_right hearly, and_iff_left hstill, hmem other hstill, Unparks]
      rw [not_or] at hearly
      rw [ended.hasParentIn_of_stranger sound hearly.2, List.mem_cons, or_iff_right hearly.1]

end Cons

/-- Nothing has changed when no process has ended. -/
theorem AllEnded.nil (sound : before.Sound) : before.AllEnded before [] [] where
  sound := sound
  parentOf?_eq pid := by
    have hnot : ¬ before.HasParentIn [] pid := by simp [HasParentIn]
    rw [List.map_nil, parentAfter, if_neg hnot]
  phaseOf?_of_mem hmem := absurd hmem List.not_mem_nil
  phaseOf?_of_notMem {pid} _ := by
    split
    · next h =>
      match hphase : before.phaseOf? pid with
      | none => rfl
      | some .running => exact absurd hphase h.2
      | some (.exited status) => exact absurd h.1 (sound.exited_parent hphase)
    · rfl
  claimOf?_eq pid := by simp [HasParentIn]
  origin hrecord := ⟨_, hrecord, rfl, rfl⟩
  root_eq := by
    cases hroot : before.root <;> simp [heirOfAll, hroot, Option.filter_some]
  running_eq := rfl
  births_eq := rfl
  next_eq := rfl
  wakers_eq := ⟨[], List.nodup_nil, rfl, by simp [Unparks, HasParentIn]⟩

theorem AllEnded.cons {more : List Waker} (sound : before.Sound)
    (ended : before.Ended middle pid status wakers) (rest : middle.AllEnded after exits more)
    (hnot : pid ∉ exits.map Prod.fst) :
    before.AllEnded after ((pid, status) :: exits) (wakers ++ more) := by
  have hparentOf (other : Pid) :
      after.parentOf? other = before.parentAfter (pid :: exits.map Prod.fst) other := by
    rw [rest.parentOf?_eq, ended.parentAfter_eq sound]
  have hphaseOf := ended.phaseOf?_eq sound
  constructor
  case sound => exact rest.sound
  case parentOf?_eq => exact hparentOf
  case phaseOf?_of_mem =>
    intro other last hmem
    obtain hfirst | hlater := List.mem_cons.1 hmem
    · cases hfirst
      have horphan (h : before.parentOf? pid = none) : after.parentOf? pid = none := by
        rw [hparentOf, parentAfter_of_none h]
      have hafter := rest.phaseOf?_of_notMem hnot
      rw [hphaseOf, if_pos rfl] at hafter
      grind
    · exact rest.phaseOf?_of_mem hlater
  case phaseOf?_of_notMem =>
    intro other hother
    rw [List.map_cons, List.mem_cons, not_or] at hother
    have hreaped (hchild : before.parentOf? other = some pid) (hheir : before.heirOf pid = none) :
        after.parentOf? other = none := by
      rw [rest.parentOf?_eq, parentAfter_of_none]
      rw [ended.parentOf?_eq sound, if_pos hchild, hheir]
    have hafter := rest.phaseOf?_of_notMem hother.2
    rw [hphaseOf, if_neg hother.1] at hafter
    grind
  case claimOf?_eq =>
    intro other
    have hafter := rest.claimOf?_eq other
    rw [ended.claimOf?_eq sound, ended.parentOf?_eq sound] at hafter
    rw [List.map_cons]
    by_cases hchild : before.parentOf? other = some pid
    · have hin : before.HasParentIn (pid :: exits.map Prod.fst) other :=
        (hasParentIn_iff hchild).2 List.mem_cons_self
      have hself : other ≠ pid := fun heq ↦ sound.parent_ne pid (heq ▸ hchild)
      rw [if_pos hin]
      grind
    · have hin : middle.HasParentIn (exits.map Prod.fst) other ↔
          before.HasParentIn (pid :: exits.map Prod.fst) other :=
        ended.hasParentIn_of_stranger sound hchild
      grind
  case origin =>
    intro other record hrecord
    obtain ⟨kept, hkept, hbirth, hname⟩ := rest.origin hrecord
    obtain ⟨old, hold, hborn, hcalled⟩ := ended.origin hkept
    exact ⟨old, hold, hbirth.trans hborn, hname.trans hcalled⟩
  case root_eq => rw [rest.root_eq, ended.heirOfAll_eq, List.map_cons]
  case running_eq => rw [List.length_cons, ← ended.running_eq, ← rest.running_eq, Nat.add_assoc]
  case births_eq => exact rest.births_eq.trans ended.births_eq
  case next_eq => exact rest.next_eq.trans ended.next_eq
  case wakers_eq =>
    obtain ⟨slots, hslots, hmore, hmem⟩ := rest.wakers_eq
    rw [hmore]
    exact ended.slots_eq sound hslots hmem

/-! ## Whatever the order -/

/-- Two tables that differ in the order of the ids that were given back at most. -/
structure Alike (one two : Table Waker) : Prop where
  records_eq : one.records = two.records
  root_eq : one.root = two.root
  running_eq : one.running = two.running
  births_eq : one.births = two.births
  next_eq : one.pids.next = two.pids.next
  limit_eq : one.pids.limit = two.pids.limit
  freed_perm : one.pids.freed.Perm two.pids.freed

/-- The ids that wait to be handed out again are those that have been and have no record. -/
theorem Sound.mem_freed_iff (sound : before.Sound) :
    pid ∈ before.pids.freed ↔
      (Limits.firstPid ≤ pid ∧ pid < before.pids.next) ∧ before.phaseOf? pid = none := by
  rw [← sound.accounted]
  constructor
  · exact fun hfreed ↦ ⟨.inr hfreed, sound.freed_absent hfreed⟩
  · rintro ⟨hpresent | hfreed, habsent⟩
    · exact absurd habsent hpresent
    · exact hfreed

section Same

variable {one two : Table Waker} (hone : one.Sound) (htwo : two.Sound)
  (hparent : ∀ pid, one.parentOf? pid = two.parentOf? pid)
  (hphase : ∀ pid, one.phaseOf? pid = two.phaseOf? pid)

include hone htwo hparent hphase

/-- The views tell all that there is in a record. -/
theorem record_eq_of_views {left right : Record Waker} (hleft : one.record? pid = some left)
    (hright : two.record? pid = some right) (hclaim : one.claimOf? pid = two.claimOf? pid)
    (hbirth : left.birth = right.birth) (hname : left.name = right.name) : left = right := by
  have hpid : left.pid = right.pid := (hone.stored hleft).trans (htwo.stored hright).symm
  have hsame := hparent pid
  rw [parentOf?_of_record? hleft, parentOf?_of_record? hright] at hsame
  have hstate := hphase pid
  rw [phaseOf?_of_record? hleft, phaseOf?_of_record? hright, Option.some_inj] at hstate
  rw [claimOf?_of_record? hleft, claimOf?_of_record? hright] at hclaim
  have hchildren : left.children = right.children := by
    apply Std.ExtTreeSet.ext_mem
    intro child
    rw [hone.mem_children_iff hleft, htwo.mem_children_iff hright, hparent]
  cases left
  cases right
  rw [Record.mk.injEq]
  exact ⟨hpid, hbirth, hname, hsame, hstate, hchildren, hclaim⟩

theorem alike_of_views (hclaim : ∀ pid, one.claimOf? pid = two.claimOf? pid)
    (hrecord : ∀ pid left right, one.record? pid = some left → two.record? pid = some right →
      left.birth = right.birth ∧ left.name = right.name)
    (hroot : one.root = two.root) (hrunning : one.running = two.running)
    (hbirths : one.births = two.births) (hnext : one.pids.next = two.pids.next) :
    one.Alike two := by
  constructor
  case records_eq =>
    apply Std.ExtTreeMap.ext_getElem?
    intro pid
    change one.record? pid = two.record? pid
    have hstate := hphase pid
    cases hleft : one.record? pid with
    | none =>
      rw [phaseOf?_eq_none_iff.2 hleft, eq_comm, phaseOf?_eq_none_iff] at hstate
      exact hstate.symm
    | some left =>
      rw [phaseOf?_of_record? hleft, eq_comm] at hstate
      obtain ⟨right, hright, -⟩ := Option.map_eq_some_iff.1 hstate
      obtain ⟨hbirth, hname⟩ := hrecord pid left right hleft hright
      rw [hright, record_eq_of_views hone htwo hparent hphase hleft hright (hclaim pid) hbirth
        hname]
  case root_eq => exact hroot
  case running_eq => exact hrunning
  case births_eq => exact hbirths
  case next_eq => exact hnext
  case limit_eq => exact hone.limit_eq.trans htwo.limit_eq.symm
  case freed_perm =>
    rw [List.perm_ext_iff_of_nodup one.pids.freed_nodup two.pids.freed_nodup]
    intro pid
    rw [hone.mem_freed_iff, htwo.mem_freed_iff, hnext, hphase]

end Same

theorem Alike.parked_eq {one two : Table Waker} (alike : one.Alike two) :
    one.parked = two.parked := by
  rw [parked, recordList, alike.records_eq]
  rfl

theorem Alike.vacated {one two : Table Waker} (alike : one.Alike two) :
    one.vacated.Alike two.vacated :=
  ⟨rfl, rfl, rfl, alike.births_eq, rfl, rfl, .refl _⟩

/-- Two lists of distinct ids come to the same wakers if they agree on who has one. -/
theorem filterMap_perm {slots others : List Pid} (hslots : slots.Nodup) (hothers : others.Nodup)
    (hmem : ∀ pid, before.wakerOf? pid ≠ none → (pid ∈ slots ↔ pid ∈ others)) :
    (slots.filterMap before.wakerOf?).Perm (others.filterMap before.wakerOf?) := by
  have hkept (pids : List Pid) : pids.filterMap before.wakerOf? =
      (pids.filter fun pid ↦ (before.wakerOf? pid).isSome).filterMap before.wakerOf? := by
    rw [List.filterMap_filter]
    apply List.filterMap_congr
    intro pid _
    cases before.wakerOf? pid <;> rfl
  rw [hkept slots, hkept others]
  apply List.Perm.filterMap
  rw [List.perm_ext_iff_of_nodup (hslots.filter _) (hothers.filter _)]
  intro pid
  rw [List.mem_filter, List.mem_filter, Option.isSome_iff_ne_none]
  exact and_congr_left (hmem pid)

namespace AllEnded

variable {one two : Table Waker} {others : List (Pid × ExitStatus)} {more : List Waker}
  (ended : before.AllEnded one exits wakers) (same : before.AllEnded two others more)
  (hperm : exits.Perm others)

include ended same hperm

theorem alike : one.Alike two := by
  have hgone (pid : Pid) : pid ∈ exits.map Prod.fst ↔ pid ∈ others.map Prod.fst :=
    (hperm.map Prod.fst).mem_iff
  have hin (pid : Pid) :
      before.HasParentIn (exits.map Prod.fst) pid ↔
        before.HasParentIn (others.map Prod.fst) pid := by
    simp only [HasParentIn, hgone]
  have hheir : before.heirOfAll (exits.map Prod.fst) = before.heirOfAll (others.map Prod.fst) := by
    simp only [heirOfAll, hgone]
  have hparent (pid : Pid) : one.parentOf? pid = two.parentOf? pid := by
    rw [ended.parentOf?_eq, same.parentOf?_eq]
    simp only [parentAfter, hin, hheir]
  have hphase (pid : Pid) : one.phaseOf? pid = two.phaseOf? pid := by
    by_cases hmem : pid ∈ exits.map Prod.fst
    · obtain ⟨⟨_, status⟩, hexit, rfl⟩ := List.mem_map.1 hmem
      rw [ended.phaseOf?_of_mem hexit, same.phaseOf?_of_mem (hperm.subset hexit), hparent]
    · rw [ended.phaseOf?_of_notMem hmem, same.phaseOf?_of_notMem (mt (hgone pid).2 hmem), hparent]
  refine alike_of_views ended.sound same.sound hparent hphase ?_ ?_ ?_ ?_ ?_ ?_
  · intro pid
    rw [ended.claimOf?_eq, same.claimOf?_eq]
    simp only [hin, hgone]
  · intro pid left right hleft hright
    obtain ⟨old, hold, hbirth, hname⟩ := ended.origin hleft
    obtain ⟨former, hformer, hborn, hcalled⟩ := same.origin hright
    rw [hold] at hformer
    cases hformer
    exact ⟨hbirth.trans hborn.symm, hname.trans hcalled.symm⟩
  · rw [ended.root_eq, same.root_eq, hheir]
  · have hlength := hperm.length_eq
    have hcount := ended.running_eq
    have hsame := same.running_eq
    omega
  · exact ended.births_eq.trans same.births_eq.symm
  · exact ended.next_eq.trans same.next_eq.symm

theorem wakers_perm : wakers.Perm more := by
  obtain ⟨slots, hslots, rfl, hmem⟩ := ended.wakers_eq
  obtain ⟨taken, htaken, rfl, hother⟩ := same.wakers_eq
  apply filterMap_perm hslots htaken
  intro pid hwaker
  have hgone (pid : Pid) : pid ∈ exits.map Prod.fst ↔ pid ∈ others.map Prod.fst :=
    (hperm.map Prod.fst).mem_iff
  rw [hmem pid hwaker, hother pid hwaker]
  simp only [Unparks, HasParentIn, hgone]

end AllEnded

end Lifecycle.Table
