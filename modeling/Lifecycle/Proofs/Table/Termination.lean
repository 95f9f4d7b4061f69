import Lifecycle.Proofs.Table.Adoption

/-!
# Ending a process

`Ended` describes the table after a process has ended: who inherits its children, which of them
have no record any more, and which joiners are to be woken.
-/

namespace Lifecycle

variable {Waker : Type}

/-- The record of a process after it has ended. -/
def Record.ended (record : Record Waker) (status : ExitStatus) : Record Waker :=
  { record.takeWaker with phase := .exited status, children := ∅ }

theorem Record.waker?_ended (record : Record Waker) (status : ExitStatus) :
    (record.ended status).waker? = none := by
  unfold Record.ended Record.takeWaker Record.waker?
  cases record.claim <;> rfl

namespace Table

variable {before after : Table Waker} {pid : Pid} {status : ExitStatus}

/-- The process that the children of another go to when it ends. -/
def heirOf (table : Table Waker) (pid : Pid) : Option Pid := table.root.filter (· ≠ pid)

def childrenOf (table : Table Waker) (pid : Pid) : List Pid :=
  match table.record? pid with
  | some record => record.children.toList
  | none => []

/-- How the table changes when a process ends, and the joiners that are to be woken. -/
structure Ended (before after : Table Waker) (pid : Pid) (status : ExitStatus)
    (wakers : List Waker) : Prop where
  was_running : before.phaseOf? pid = some .running
  record?_eq (other : Pid) :
    after.record? other =
      if other = pid then
        if before.parentOf? pid = none then none else (before.record? pid).map (·.ended status)
      else if before.parentOf? other = some pid then
        (before.record? other).bind (·.inheritedBy (before.heirOf pid))
      else if before.heirOf pid = some other then
        (before.record? other).map (·.withChildren (before.childrenOf pid))
      else before.record? other
  root_eq : after.root = before.heirOf pid
  running_eq : after.running + 1 = before.running
  births_eq : after.births = before.births
  next_eq : after.pids.next = before.pids.next
  limit_eq : after.pids.limit = before.pids.limit
  freed_iff (other : Pid) :
    other ∈ after.pids.freed ↔
      other ∈ before.pids.freed ∨ before.record? other ≠ none ∧ after.record? other = none
  size_le : after.size ≤ before.size
  wakers_eq :
    wakers = (before.wakerOf? pid).toList ++ (before.childrenOf pid).filterMap before.wakerOf?

theorem heirOf_ne (table : Table Waker) (pid : Pid) : table.heirOf pid ≠ some pid := by
  intro hheir
  rw [heirOf, Option.filter_eq_some_iff] at hheir
  simp at hheir

theorem Sound.mem_childrenOf (sound : before.Sound) {child : Pid} :
    child ∈ before.childrenOf pid ↔ before.parentOf? child = some pid := by
  unfold childrenOf
  split
  · next record hrecord =>
    rw [Std.ExtTreeSet.mem_toList]
    exact sound.mem_children_iff hrecord
  · next hnone =>
    refine ⟨nofun, fun hparent ↦ ?_⟩
    have hrunning := sound.parent_running hparent
    simp [phaseOf?, hnone] at hrunning

theorem nodup_childrenOf (table : Table Waker) (pid : Pid) : (table.childrenOf pid).Nodup := by
  unfold childrenOf
  split
  · exact Std.ExtTreeSet.distinct_toList.imp Std.ReflCmp.ne_of_cmp_ne_eq
  · exact List.nodup_nil

theorem Sound.heir_running (sound : before.Sound) {heir : Pid}
    (hheir : before.heirOf pid = some heir) :
    before.phaseOf? heir = some .running ∧ before.parentOf? heir = none ∧ heir ≠ pid := by
  have hne : heir ≠ pid := fun heq ↦ heirOf_ne before pid (heq ▸ hheir)
  rw [heirOf, Option.filter_eq_some_iff] at hheir
  obtain ⟨hrunning, horphan⟩ := sound.root_running hheir.1
  exact ⟨hrunning, horphan, hne⟩

section Terminate

variable (sound : before.Sound) {record : Record Waker}
  (hrecord : before.record? pid = some record) (hrunning : record.phase = .running)

/-- The table when the children are about to be handed on. -/
def marked (table : Table Waker) (record : Record Waker) (status : ExitStatus) : Table Waker :=
  { table.put (record.ended status) with running := table.running - 1 }

include sound hrecord

theorem record?_marked (status : ExitStatus) (other : Pid) :
    (before.marked record status).record? other =
      if other = pid then some (record.ended status) else before.record? other := by
  have hpid : record.pid = pid := sound.stored hrecord
  change (before.put (record.ended status)).record? other = _
  rw [record?_put]
  change (if record.pid = other then _ else _) = _
  rw [hpid]
  grind

theorem size_marked (status : ExitStatus) :
    (before.marked record status).size = before.size := by
  apply size_put_of_present before (record.ended status)
  change before.record? record.pid ≠ none
  rw [sound.stored hrecord, hrecord]
  exact Option.some_ne_none record

theorem parentOf?_of_mem {child : Pid} (hmem : child ∈ record.children.toList) :
    before.parentOf? child = some pid := by
  rw [Std.ExtTreeSet.mem_toList] at hmem
  exact (sound.mem_children_iff hrecord).1 hmem

theorem adoptable_marked (status : ExitStatus) :
    (before.marked record status).Adoptable (before.heirOf pid) record.children.toList := by
  have hmarked := record?_marked sound hrecord status
  have hne {child : Pid} (hmem : child ∈ record.children.toList) : child ≠ pid := by
    rintro rfl
    exact sound.parent_ne child (parentOf?_of_mem sound hrecord hmem)
  have hkept {child : Pid} (hmem : child ∈ record.children.toList) :
      (before.marked record status).record? child = before.record? child := by
    rw [hmarked, if_neg (hne hmem)]
  have hpresent {child : Pid} (hmem : child ∈ record.children.toList) :
      ∃ kept, before.record? child = some kept := by
    obtain ⟨kept, hchild, -⟩ :=
      Option.bind_eq_some_iff.1 (parentOf?_of_mem sound hrecord hmem)
    exact ⟨kept, hchild⟩
  constructor
  case distinct => exact Std.ExtTreeSet.distinct_toList.imp Std.ReflCmp.ne_of_cmp_ne_eq
  case present =>
    intro child hmem
    rw [hkept hmem, Option.ne_none_iff_exists']
    exact hpresent hmem
  case stored =>
    intro other kept hother
    rw [hmarked] at hother
    split at hother
    · next heq =>
      cases hother
      rw [heq]
      have hpid := sound.stored hrecord
      exact hpid
    · exact sound.stored hother
  case childless =>
    intro child hmem hstopped
    unfold HasChild
    unfold IsRunning at hstopped
    rw [hkept hmem] at hstopped ⊢
    obtain ⟨kept, hchild⟩ := hpresent hmem
    cases hphase : kept.phase with
    | running => exact absurd ⟨kept, hchild, hphase⟩ hstopped
    | exited first =>
      exact sound.exited_childless (hphase ▸ phaseOf?_of_record? hchild)
  case isOut =>
    intro child hmem
    obtain ⟨kept, hchild⟩ := hpresent hmem
    have hout := sound.isOut hchild
    exact hout
  case not_root =>
    intro child hmem hroot
    have hroot : before.root = some child := hroot
    have horphan := (sound.root_running hroot).2
    rw [parentOf?_of_mem sound hrecord hmem] at horphan
    cases horphan
  case heir_present =>
    intro heir hheir
    obtain ⟨hphase, horphan, hother⟩ := sound.heir_running hheir
    constructor
    · intro hmem
      rw [parentOf?_of_mem sound hrecord hmem] at horphan
      cases horphan
    · rw [hmarked, if_neg hother, ne_eq, ← phaseOf?_eq_none_iff, hphase]
      exact Option.some_ne_none _

end Terminate

theorem terminate_absent (habsent : before.record? pid = none) :
    (terminate pid status).Yields before (.error .ESRCH) before [] := by
  unfold terminate
  apply Action.Yields.bind_silent (Action.yields_table before)
  simp only [habsent]
  exact Action.yields_refuse _ _

theorem terminate_faults {record : Record Waker} (hrecord : before.record? pid = some record)
    (hbad : record.phase ≠ .running ∨ before.running = 0) :
    (terminate pid status).Faults before := by
  unfold terminate
  apply Action.Yields.bind_faults (Action.yields_table before)
  simp only [hrecord]
  split
  · exact Action.Yields.bind_faults (Action.yields_note _ _) (Action.faults_fault _ _)
  · next hrunning =>
    apply Action.Yields.bind_faults (Action.yields_update _ _)
    refine Action.Faults.bind (Action.Faults.holding _ (countEnded_faults ?_))
    exact hbad.resolve_left (not_not_intro hrunning)

/-- To end a process that has ended is a fault, before anything is changed. -/
theorem terminate_twice {first : ExitStatus} (hexited : before.phaseOf? pid = some (.exited first))
    (status : ExitStatus) (effects : List (Effect Waker)) :
    ∃ notice, (terminate pid status).run ⟨before, effects⟩ =
      .failed (.fault (.terminatedTwice pid)) ⟨before, effects ++ [.note notice]⟩ := by
  obtain ⟨record, hrecord, hphase⟩ := Option.map_eq_some_iff.1 hexited
  exact ⟨.terminatedTwice pid record.name first status, by simp [terminate, hrecord, hphase]⟩

/-! ## After the children were handed on -/

/-- The process is no root any more, and without a parent it goes. -/
def settled (late : Table Waker) (pid : Pid) (parent : Option Pid) : Table Waker :=
  if parent = none then (late.unsetRoot pid).without pid none else late.unsetRoot pid

theorem record?_settled (late : Table Waker) (pid : Pid) (parent : Option Pid) (other : Pid) :
    (late.settled pid parent).record? other =
      if other = pid ∧ parent = none then none else late.record? other := by
  unfold settled
  split
  · change ((late.unsetRoot pid).erase pid).record? other = _
    rw [record?_erase, record?_unsetRoot]
    grind
  · rw [record?_unsetRoot]
    grind

theorem root_settled (late : Table Waker) (pid : Pid) (parent : Option Pid) :
    (late.settled pid parent).root = late.root.filter (· ≠ pid) := by
  unfold settled
  split
  · change (late.root.filter (· ≠ pid)).filter (· ≠ pid) = _
    rw [Option.filter_filter]
    simp
  · rfl

theorem freed_settled {late : Table Waker} (hout : late.pids.IsOut pid) (parent : Option Pid)
    (other : Pid) :
    other ∈ (late.settled pid parent).pids.freed ↔
      other ∈ late.pids.freed ∨ other = pid ∧ parent = none := by
  unfold settled
  split
  · next horphan =>
    change other ∈ (late.pids.released pid).freed ↔ _
    rw [IdPool.freed_released hout, List.mem_cons]
    grind
  · next hparent => simp [unsetRoot, hparent]

theorem size_settled_le (late : Table Waker) (pid : Pid) (parent : Option Pid) :
    (late.settled pid parent).size ≤ late.size := by
  unfold settled
  split
  · exact Std.ExtTreeMap.size_erase_le
  · exact Nat.le_refl _

section Ended

variable (sound : before.Sound) {record : Record Waker} {late : Table Waker}
  (hrecord : before.record? pid = some record) (hrunning : record.phase = .running)
  (hcount : before.running ≠ 0)
  (handedOn : (before.marked record status).HandedOn late (before.heirOf pid)
    record.children.toList)

include sound hrecord handedOn

/-- Handing the children on does not touch the process itself. -/
theorem record?_self_of_handedOn : late.record? pid = some (record.ended status) := by
  have hmem : pid ∉ record.children.toList :=
    fun hmem ↦ sound.parent_ne pid (parentOf?_of_mem sound hrecord hmem)
  rw [handedOn.record?_eq, if_neg hmem, if_neg (heirOf_ne before pid),
    record?_marked sound hrecord status, if_pos rfl]

theorem record?_of_handedOn {other : Pid} (hne : other ≠ pid) :
    late.record? other =
      if before.parentOf? other = some pid then
        (before.record? other).bind (·.inheritedBy (before.heirOf pid))
      else if before.heirOf pid = some other then
        (before.record? other).map (·.withChildren (before.childrenOf pid))
      else before.record? other := by
  have hchildren : before.childrenOf pid = record.children.toList := by
    rw [childrenOf, hrecord]
  have hmem : other ∈ record.children.toList ↔ before.parentOf? other = some pid :=
    hchildren ▸ sound.mem_childrenOf
  rw [handedOn.record?_eq, record?_marked sound hrecord status, if_neg hne, hchildren]
  simp only [hmem]

theorem isOut_of_handedOn : late.pids.IsOut pid := by
  have hout := sound.isOut hrecord
  refine ⟨handedOn.next_eq ▸ hout.1, fun hfreed ↦ ?_⟩
  obtain hold | ⟨hmem, -⟩ := (handedOn.freed_iff pid).1 hfreed
  · exact hout.2 hold
  · exact sound.parent_ne pid (parentOf?_of_mem sound hrecord hmem)

theorem freed_of_handedOn (other : Pid) :
    other ∈ (late.settled pid record.parent).pids.freed ↔
      other ∈ before.pids.freed ∨
        before.record? other ≠ none ∧ (late.settled pid record.parent).record? other = none := by
  have hgone : other ∈ late.pids.freed ↔ other ∈ before.pids.freed ∨
      other ∈ record.children.toList ∧ late.record? other = none := handedOn.freed_iff other
  have hmem : other ∈ record.children.toList ↔ before.parentOf? other = some pid := by
    rw [← sound.mem_childrenOf, childrenOf, hrecord]
  have hself := record?_self_of_handedOn sound hrecord handedOn
  have hne := sound.parent_ne pid
  rw [freed_settled (isOut_of_handedOn sound hrecord handedOn), hgone, record?_settled, hmem]
  by_cases heq : other = pid
  · rw [heq, hself, hrecord]
    grind
  have hlate := record?_of_handedOn sound hrecord handedOn heq
  by_cases hchild : before.parentOf? other = some pid
  · have hpresent : before.record? other ≠ none := by
      intro hnone
      simp [parentOf?, hnone] at hchild
    grind
  · have hkept : late.record? other = none ↔ before.record? other = none := by
      rw [hlate, if_neg hchild]
      split
      · exact Option.map_eq_none_iff
      · rfl
    grind

include hrunning hcount

theorem ended_of_handedOn :
    before.Ended (late.settled pid record.parent) pid status
      ((before.wakerOf? pid).toList ++ (before.childrenOf pid).filterMap before.wakerOf?) := by
  have hfields : (late.settled pid record.parent).running = late.running ∧
      (late.settled pid record.parent).births = late.births ∧
      (late.settled pid record.parent).pids.next = late.pids.next ∧
      (late.settled pid record.parent).pids.limit = late.pids.limit := by
    unfold settled
    split
    · exact ⟨rfl, rfl, IdPool.next_released late.pids pid, IdPool.limit_released late.pids pid⟩
    · exact ⟨rfl, rfl, rfl, rfl⟩
  obtain ⟨hleft, hbirths, hnext, hlimit⟩ := hfields
  constructor
  case was_running => exact hrunning ▸ phaseOf?_of_record? hrecord
  case record?_eq =>
    intro other
    rw [record?_settled, parentOf?_of_record? hrecord]
    by_cases heq : other = pid
    · rw [heq, record?_self_of_handedOn sound hrecord handedOn, hrecord]
      simp
    · rw [if_neg heq, if_neg (fun h ↦ heq h.1)]
      exact record?_of_handedOn sound hrecord handedOn heq
  case root_eq =>
    rw [root_settled, handedOn.root_eq]
    rfl
  case running_eq =>
    rw [hleft, handedOn.running_eq]
    exact Nat.sub_add_cancel (Nat.pos_of_ne_zero hcount)
  case births_eq => exact hbirths.trans handedOn.births_eq
  case next_eq => exact hnext.trans handedOn.next_eq
  case limit_eq => exact hlimit.trans handedOn.limit_eq
  case freed_iff => exact freed_of_handedOn sound hrecord handedOn
  case size_le =>
    calc
      _ ≤ late.size := size_settled_le late pid record.parent
      _ ≤ (before.marked record status).size := handedOn.size_le
      _ = before.size := size_marked sound hrecord status
  case wakers_eq => rfl

end Ended

theorem terminate_ended (sound : before.Sound) {record : Record Waker}
    (hrecord : before.record? pid = some record) (hrunning : record.phase = .running)
    (hcount : before.running ≠ 0) :
    ∃ after wakers, before.Ended after pid status wakers ∧
      (terminate pid status).Yields before (.ok ⟨wakers, after.running = 0⟩) after [] := by
  obtain ⟨late, handedOn, hall⟩ :=
    adoptAll_spec (adoptable_marked sound hrecord status) record.waker?.toList
  have hself := record?_self_of_handedOn sound hrecord handedOn
  have hout := isOut_of_handedOn sound hrecord handedOn
  have hwakers : record.waker?.toList ++
      record.children.toList.filterMap (before.marked record status).wakerOf? =
      (before.wakerOf? pid).toList ++ (before.childrenOf pid).filterMap before.wakerOf? := by
    rw [wakerOf?_of_record? hrecord, childrenOf, hrecord]
    refine congrArg _ (List.filterMap_congr fun child hmem ↦ ?_)
    have hne : child ≠ pid := by
      rintro rfl
      exact sound.parent_ne child (parentOf?_of_mem sound hrecord hmem)
    rw [wakerOf?, record?_marked sound hrecord status, if_neg hne, wakerOf?]
  rw [hwakers] at hall
  refine ⟨late.settled pid record.parent, _,
    ended_of_handedOn sound hrecord hrunning hcount handedOn, ?_⟩
  unfold terminate
  apply Action.Yields.bind_silent (Action.yields_table before)
  simp only [hrecord]
  split
  case h_1 first hexited =>
    rw [hrunning] at hexited
    cases hexited
  apply Action.Yields.bind_silent (Action.yields_update _ _)
  refine .bind_silent (.holding _ (countEnded_yields hcount)) ?_
  apply Action.Yields.bind_silent hall
  apply Action.Yields.bind_silent (Action.yields_update _ _)
  unfold settled
  cases horphan : record.parent with
  | some parent => exact .bind_silent (Action.yields_table _) (Action.yields_pure _ _)
  | none =>
    have hparent : (record.ended status).parent = none := horphan
    have hself : (late.unsetRoot pid).record? pid = some (record.ended status) := hself
    have hreap := reap_yields hself rfl
      (Record.waker?_ended record status) rfl hout
    rw [hparent] at hreap
    rw [if_pos rfl]
    exact .bind_silent (hreap.holding _)
      (.bind_silent (Action.yields_table _) (Action.yields_pure _ _))

/-- Ending a process is refused, or it is a fault, or the process has ended afterwards. -/
theorem terminate_spec (sound : before.Sound) (pid : Pid) (status : ExitStatus) :
    (before.phaseOf? pid = none ∧ (terminate pid status).Yields before (.error .ESRCH) before []) ∨
    ((before.phaseOf? pid = some .running → before.running = 0) ∧
      before.phaseOf? pid ≠ none ∧ (terminate pid status).Faults before) ∨
    ∃ after wakers, before.Ended after pid status wakers ∧
      (terminate pid status).Yields before (.ok ⟨wakers, after.running = 0⟩) after [] := by
  cases hrecord : before.record? pid with
  | none => exact .inl ⟨phaseOf?_eq_none_iff.2 hrecord, terminate_absent hrecord⟩
  | some record =>
    right
    have hphaseOf := phaseOf?_of_record? hrecord
    by_cases hbad : record.phase ≠ .running ∨ before.running = 0
    · refine .inl ⟨fun hrunning ↦ ?_, ?_, terminate_faults hrecord hbad⟩
      · rw [hphaseOf, Option.some_inj] at hrunning
        exact hbad.resolve_left (not_not_intro hrunning)
      · rw [hphaseOf]
        exact Option.some_ne_none _
    · rw [not_or, not_not] at hbad
      exact .inr (terminate_ended sound hrecord hbad.1 hbad.2)

namespace Ended

variable {wakers : List Waker} (ended : before.Ended after pid status wakers)

include ended

/-- The process itself keeps a record if there is a parent to collect its status. -/
theorem record?_self : after.record? pid =
    if before.parentOf? pid = none then none else (before.record? pid).map (·.ended status) := by
  rw [ended.record?_eq, if_pos rfl]

theorem record?_child (sound : before.Sound) {child : Pid}
    (hchild : before.parentOf? child = some pid) :
    after.record? child = (before.record? child).bind (·.inheritedBy (before.heirOf pid)) := by
  have hne : child ≠ pid := by
    rintro rfl
    exact sound.parent_ne child hchild
  rw [ended.record?_eq, if_neg hne, if_pos hchild]

/-- Of the other processes only the heir changes, and only by its children. -/
theorem view_other {β : Type} (view : Record Waker → Option β)
    (hview : ∀ record children, view (record.withChildren children) = view record) {other : Pid}
    (hne : other ≠ pid) (hstranger : before.parentOf? other ≠ some pid) :
    (after.record? other).bind view = (before.record? other).bind view := by
  rw [ended.record?_eq, if_neg hne, if_neg hstranger]
  split
  · rw [Option.bind_map]
    exact congrArg _ (funext fun record ↦ hview record _)
  · rfl

theorem parentOf?_eq (sound : before.Sound) (other : Pid) :
    after.parentOf? other =
      if before.parentOf? other = some pid then before.heirOf pid else before.parentOf? other := by
  by_cases hself : other = pid
  · have hne := sound.parent_ne pid
    rw [hself, if_neg hne, parentOf?, ended.record?_self]
    split
    · next horphan => exact horphan.symm
    · exact Option.bind_map
  split
  · next hchild =>
    obtain ⟨record, hrecord, -⟩ := Option.bind_eq_some_iff.1 hchild
    rw [parentOf?, ended.record?_child sound hchild, hrecord, Option.bind_some,
      Record.inheritedBy]
    split
    · next hgone => exact hgone.1.symm
    · rfl
  · next hstranger => exact ended.view_other (·.parent) (fun _ _ ↦ rfl) hself hstranger

theorem phaseOf?_eq (sound : before.Sound) (other : Pid) :
    after.phaseOf? other =
      if other = pid then
        if before.parentOf? pid = none then none else some (.exited status)
      else if before.parentOf? other = some pid ∧ before.heirOf pid = none ∧
          before.phaseOf? other ≠ some .running then none
      else before.phaseOf? other := by
  obtain ⟨own, hown, -⟩ := Option.map_eq_some_iff.1 ended.was_running
  split
  · next hself =>
    rw [hself, phaseOf?, ended.record?_self, hown]
    split <;> rfl
  · next hself =>
    by_cases hchild : before.parentOf? other = some pid
    · obtain ⟨record, hrecord, -⟩ := Option.bind_eq_some_iff.1 hchild
      have hstopped : some record.phase ≠ some .running ↔ ¬ record.IsRunning :=
        not_congr Option.some_inj
      rw [phaseOf?_of_record? hrecord, phaseOf?, ended.record?_child sound hchild, hrecord,
        Option.bind_some, Record.inheritedBy]
      by_cases hgone : before.heirOf pid = none ∧ ¬ record.IsRunning
      · rw [if_pos hgone, if_pos ⟨hchild, hgone.1, hstopped.2 hgone.2⟩, Option.map_none]
      · rw [if_neg hgone, if_neg fun h ↦ hgone ⟨h.2.1, hstopped.1 h.2.2⟩, Option.map_some]
    · rw [if_neg (fun h ↦ hchild h.1), phaseOf?, phaseOf?, Option.map_eq_bind, Option.map_eq_bind]
      exact ended.view_other _ (fun _ _ ↦ rfl) hself hchild

/-- Whoever has a record afterwards had it before, with the same birth. -/
theorem birthOf?_eq (sound : before.Sound) (other : Pid) :
    after.birthOf? other =
      if after.phaseOf? other = none then none else before.birthOf? other := by
  split
  · next hnone =>
    rw [phaseOf?_eq_none_iff] at hnone
    rw [birthOf?, hnone, Option.map_none]
  · next hsome =>
    rw [phaseOf?_eq_none_iff] at hsome
    by_cases hself : other = pid
    · rw [hself, ended.record?_self] at hsome
      rw [hself, birthOf?, birthOf?, ended.record?_self]
      split
      · next horphan => exact absurd (if_pos horphan) hsome
      · exact Option.map_map _ _ _
    by_cases hchild : before.parentOf? other = some pid
    · obtain ⟨record, hrecord, -⟩ := Option.bind_eq_some_iff.1 hchild
      rw [ended.record?_child sound hchild, hrecord, Option.bind_some, Record.inheritedBy] at hsome
      rw [birthOf?_of_record? hrecord, birthOf?, ended.record?_child sound hchild, hrecord,
        Option.bind_some, Record.inheritedBy]
      split
      · next hgone => exact absurd (if_pos hgone) hsome
      · rfl
    · rw [birthOf?, birthOf?, Option.map_eq_bind, Option.map_eq_bind]
      exact ended.view_other _ (fun _ _ ↦ rfl) hself hchild

/-- Joiners lose the slots of the children, and nobody stays parked on the process itself. -/
theorem claimOf?_eq (sound : before.Sound) (other : Pid) :
    after.claimOf? other =
      if other = pid then
        if before.parentOf? pid = none then none
        else (before.claimOf? pid).map fun claim ↦ { claim with waker := none }
      else if before.parentOf? other = some pid then none
      else before.claimOf? other := by
  split
  · next hself =>
    rw [hself, claimOf?, ended.record?_self]
    split
    · rfl
    · rw [Option.bind_map, claimOf?, Option.map_bind]
      rfl
  · next hself =>
    split
    · next hchild =>
      obtain ⟨record, hrecord, -⟩ := Option.bind_eq_some_iff.1 hchild
      rw [claimOf?, ended.record?_child sound hchild, hrecord, Option.bind_some,
        Record.inheritedBy]
      split <;> rfl
    · next hstranger => exact ended.view_other (·.claim) (fun _ _ ↦ rfl) hself hstranger

theorem wakerOf?_eq (sound : before.Sound) (other : Pid) :
    after.wakerOf? other =
      if other = pid ∨ before.parentOf? other = some pid then none else before.wakerOf? other := by
  rw [wakerOf?_eq_bind_claimOf?, wakerOf?_eq_bind_claimOf?, ended.claimOf?_eq sound]
  by_cases hself : other = pid
  · rw [if_pos hself, if_pos (Or.inl hself : other = pid ∨ before.parentOf? other = some pid)]
    split
    · rfl
    · cases before.claimOf? pid <;> rfl
  by_cases hchild : before.parentOf? other = some pid
  · rw [if_neg hself, if_pos hchild, if_pos (.inr hchild), Option.bind_none]
  · rw [if_neg hself, if_neg hchild, if_neg (not_or.2 ⟨hself, hchild⟩)]

theorem hasChild_iff (sound : before.Sound) (holder child : Pid) :
    after.HasChild holder child ↔ after.parentOf? child = some holder := by
  have hlinks (holder : Pid) :
      before.HasChild holder child ↔ before.parentOf? child = some holder :=
    sound.hasChild_iff_parentOf?
  have hown := sound.parent_ne pid
  have hheirs (heir : Pid) (hheir : before.heirOf pid = some heir) := sound.heir_running hheir
  have hmem : child ∈ before.childrenOf pid ↔ before.parentOf? child = some pid :=
    sound.mem_childrenOf
  rw [ended.parentOf?_eq sound]
  by_cases hself : holder = pid
  · -- nobody is left who has the process for a parent
    have hnone : ¬ after.HasChild holder child := by
      rintro ⟨record, hrecord, hchild⟩
      rw [hself, ended.record?_self] at hrecord
      split at hrecord
      · cases hrecord
      · obtain ⟨old, -, rfl⟩ := Option.map_eq_some_iff.1 hrecord
        exact Std.ExtTreeSet.not_mem_empty hchild
    have hheir := heirOf_ne before pid
    grind
  by_cases hchild : before.parentOf? holder = some pid
  · -- an inherited process keeps its children, and one that goes had none
    have hkept : after.HasChild holder child ↔ before.HasChild holder child := by
      obtain ⟨record, hrecord, -⟩ := Option.bind_eq_some_iff.1 hchild
      have hafter := ended.record?_child sound hchild
      rw [hrecord, Option.bind_some, Record.inheritedBy] at hafter
      split at hafter
      · next hgone =>
        have hchildless : ¬ before.HasChild holder child := by
          cases hphase : record.phase with
          | running => exact absurd hphase hgone.2
          | exited first =>
            exact sound.exited_childless (hphase ▸ phaseOf?_of_record? hrecord) child
        exact iff_of_false (by simp [HasChild, hafter]) hchildless
      · rw [hasChild_iff_of_record? hafter, hasChild_iff_of_record? hrecord]
    grind
  have hafter := ended.record?_eq holder
  rw [if_neg hself, if_neg hchild] at hafter
  split at hafter
  · next hheir =>
    obtain ⟨record, hrecord, -⟩ := Option.map_eq_some_iff.1 (hheirs holder hheir).1
    rw [hrecord, Option.map_some] at hafter
    rw [hasChild_iff_of_record? hafter, Record.mem_children_withChildren, hmem,
      ← hasChild_iff_of_record? hrecord]
    grind
  · have hkept : after.HasChild holder child ↔ before.HasChild holder child := by
      rw [HasChild, HasChild, hafter]
    grind

theorem shrinks (sound : before.Sound) : before.Shrinks after where
  birthOf?_of {other birth} hbirth := by
    rw [ended.birthOf?_eq sound] at hbirth
    split at hbirth
    · cases hbirth
    · exact hbirth
  root_of {root} hroot := by
    rw [ended.root_eq, heirOf, Option.filter_eq_some_iff] at hroot
    exact hroot.1
  births_eq := ended.births_eq

/-- Every parent runs, be it the heir or one whose child was not handed on. -/
theorem parent_running (sound : before.Sound) {child parent : Pid}
    (hparent : after.parentOf? child = some parent) : after.phaseOf? parent = some .running := by
  have hparentOf := ended.parentOf?_eq sound
  have hphaseOf := ended.phaseOf?_eq sound
  have hheirs (heir : Pid) (hheir : before.heirOf pid = some heir) := sound.heir_running hheir
  have hrunning (h : before.parentOf? child = some parent) := sound.parent_running h
  grind

theorem stored (sound : before.Sound) {other : Pid} {kept : Record Waker}
    (hkept : after.record? other = some kept) : kept.pid = other := by
  rw [ended.record?_eq] at hkept
  split at hkept
  · next heq =>
    split at hkept
    · cases hkept
    · obtain ⟨old, hold, rfl⟩ := Option.map_eq_some_iff.1 hkept
      have hpid := sound.stored hold
      exact heq ▸ hpid
  split at hkept
  · obtain ⟨old, hold, hinherited⟩ := Option.bind_eq_some_iff.1 hkept
    have hpid := sound.stored hold
    exact (Record.pid_of_inheritedBy hinherited).trans hpid
  split at hkept
  · obtain ⟨old, hold, rfl⟩ := Option.map_eq_some_iff.1 hkept
    have hpid := sound.stored hold
    exact hpid
  · exact sound.stored hkept

/-- The links of those that are handed on lead to the heir, and no others change. -/
theorem wellFormed_of_sound (sound : before.Sound) : after.WellFormed := by
  have hparentOf := ended.parentOf?_eq sound
  have hphaseOf := ended.phaseOf?_eq sound
  constructor
  case hasChild_iff =>
    exact fun holder child ↦ hasChild_iff_of_links (ended.hasChild_iff sound holder child)
  case parent_running => exact ended.parent_running sound
  case exited_iff_status => exact fun _ ↦ exited_iff_status_of_phase _
  case exited_childless =>
    intro other first hexited child hchild
    have hparent := (ended.hasChild_iff sound other child).1 hchild
    rw [ended.parent_running sound hparent] at hexited
    cases hexited
  case exited_parent =>
    intro other first hexited
    have hheirs (heir : Pid) (hheir : before.heirOf pid = some heir) := sound.heir_running hheir
    have hparent (h : before.phaseOf? other = some (.exited first)) := sound.exited_parent h
    have hne := sound.parent_ne pid
    grind
  case root_running =>
    intro root hroot
    rw [ended.root_eq] at hroot
    obtain ⟨hrunning, horphan, hne⟩ := sound.heir_running hroot
    grind
  case size_le => exact Nat.le_trans ended.size_le sound.size_le
  case stored => exact ended.stored sound

/-- Ids are given back with the records that go. -/
theorem sound (sound : before.Sound) : after.Sound := by
  have hparentOf := ended.parentOf?_eq sound
  have hphaseOf := ended.phaseOf?_eq sound
  have hshrinks := ended.shrinks sound
  have hheirs (heir : Pid) (hheir : before.heirOf pid = some heir) := sound.heir_running hheir
  have hfreedOf (other : Pid) :
      other ∈ after.pids.freed ↔ other ∈ before.pids.freed ∨
        before.phaseOf? other ≠ none ∧ after.phaseOf? other = none := by
    rw [ended.freed_iff, ne_eq, ne_eq, phaseOf?_eq_none_iff, phaseOf?_eq_none_iff]
  constructor
  case toWellFormed => exact ended.wellFormed_of_sound sound
  case parent_ne =>
    intro other
    have hne := sound.parent_ne other
    grind
  case exited_unparked =>
    intro other first hexited
    have hunparked (h : before.phaseOf? other = some (.exited first)) := sound.exited_unparked h
    have hwakerOf := ended.wakerOf?_eq sound other
    grind
  case accounted =>
    intro other
    have haccounted := sound.accounted other
    have hpresent (h : after.phaseOf? other ≠ none) := hshrinks.present_of h
    rw [hfreedOf, ended.next_eq]
    grind
  case freed_absent =>
    intro other hfreed
    rw [hfreedOf] at hfreed
    have hpresent (h : after.phaseOf? other ≠ none) := hshrinks.present_of h
    have habsent (h : other ∈ before.pids.freed) := sound.freed_absent h
    grind
  case first_le => exact ended.next_eq ▸ sound.first_le
  case next_le => exact ended.next_eq ▸ sound.next_le
  case limit_eq => exact ended.limit_eq.trans sound.limit_eq
  case birth_lt => exact hshrinks.birth_lt sound
  case birth_injective => exact hshrinks.birth_injective sound

end Ended

end Table

end Lifecycle
