import Lifecycle.Proofs.Kernel.Requests
import Lifecycle.Proofs.Table.Parking

/-!
# Wake-ups

A joiner that a poll has parked is woken or still holds the slot of its target, which then runs and
is a child of the joiner's caller. No waker is used more often than it was parked.
-/

namespace Lifecycle.Kernel

variable {Waker : Type} {kernel : Kernel Waker} {demand : Demand Waker} {after : Table Waker}
  {loads : List Load} {audible : List (Effect Waker)} {answer : Answer}

/-! ## What a change does to parked wakers -/

section Count

variable [DecidableEq Waker] (waker : Waker)

/-- In a tear-down everybody who is still parked is woken. -/
theorem count_of_vacated (table : Table Waker) :
    ((table.parked.map (Effect.wake · 0) ++ [Effect.stop 0]).filterMap Effect.waker?).count waker +
      (table.vacated.targets waker).card ≤ (table.targets waker).card := by
  rw [List.filterMap_append, Effect.filterMap_waker?_wakes, Table.targets_vacated]
  have hparked := table.count_parked waker
  simpa [List.filterMap_cons, Effect.waker?] using hparked

theorem count_of_ends {pid : Pid} {status : ExitStatus} {before : Table Waker}
    (sound : before.Sound) (ends : before.Ends pid status after audible) :
    (audible.filterMap Effect.waker?).count waker + (after.targets waker).card ≤
      (before.targets waker).card := by
  cases ends with
  | left hended _ =>
    rw [Effect.filterMap_waker?_wakes]
    exact hended.count waker sound
  | @last middle _ hended _ =>
    have hcount := hended.count waker sound
    have hvacated := count_of_vacated waker middle
    rw [List.append_assoc, List.filterMap_append, Effect.filterMap_waker?_wakes, List.count_append,
      Nat.add_assoc]
    calc
      _ ≤ _ + (middle.targets waker).card := Nat.add_le_add_left hvacated _
      _ ≤ (before.targets waker).card := hcount

/-- Unless somebody is parked with it, a waker is used only as often as it is taken away. -/
theorem Change.count (sound : kernel.table.Sound)
    (change : kernel.Change demand after loads audible answer)
    (hparks : ∀ wait, demand = .join wait waker → answer ≠ .pending) :
    (audible.filterMap Effect.waker?).count waker + (after.targets waker).card ≤
      (kernel.table.targets waker).card := by
  cases change with
  | unchanged _ hquiet =>
    have hsilent : audible.filterMap Effect.waker? = [] := by
      rw [List.filterMap_eq_nil_iff]
      intro effect hmem
      obtain ⟨size, rfl⟩ := hquiet effect hmem
      rfl
    simp [hsilent]
  | admitted | gone => simp [List.filterMap_cons, Effect.waker?]
  | inserted hinserted =>
    rw [List.filterMap_nil, List.count_nil, Nat.zero_add]
    exact Table.card_targets_le waker fun other hwaker ↦ hinserted.waker_kept hwaker
  | @withdrawn load _ _ _ _ _ hremoved =>
    have htaken : (kernel.table.wakerOf? load.pid).toList =
        [load.pid].filterMap kernel.table.wakerOf? := by
      rw [List.filterMap_cons]
      cases kernel.table.wakerOf? load.pid <;> rfl
    rw [Effect.filterMap_waker?_wakes, htaken]
    apply Table.count_add_card_le waker (List.nodup_singleton _)
    · intro other hmem
      rw [hremoved.wakerOf?_eq, if_pos (List.mem_singleton.1 hmem)]
    · exact fun other hwaker ↦ hremoved.waker_kept hwaker
  | ended hends => exact count_of_ends waker sound hends
  | cleared => exact count_of_vacated waker kernel.table
  | polled hattempts _ hpending =>
    rw [List.filterMap_nil, List.count_nil, Nat.zero_add]
    cases hattempts with
    | stranger | busy => exact Nat.le_refl _
    | collected _ _ hremoved _ =>
      exact Table.card_targets_le waker fun other hwaker ↦ hremoved.waker_kept hwaker
    | parked _ _ _ =>
      apply Table.card_targets_le
      intro other hwaker
      apply Table.waker_kept_setClaim sound _ hwaker
      rintro ⟨⟩
      exact hparks _ rfl (hpending.2 rfl)
  | released =>
    rw [List.filterMap_nil, List.count_nil, Nat.zero_add]
    apply Table.card_targets_le
    intro other hwaker
    exact Table.waker_kept_setClaim sound (by simp) hwaker

/-- Being parked adds one target at most. -/
theorem Change.count_parked {wait : Wait} {other : Waker} (sound : kernel.table.Sound)
    (change : kernel.Change (.join wait other) after loads audible answer) :
    (audible.filterMap Effect.waker?).count waker + (after.targets waker).card ≤
      (kernel.table.targets waker).card + 1 := by
  cases change with
  | unchanged hvoid _ => cases hvoid
  | polled hattempts _ _ =>
    rw [List.filterMap_nil, List.count_nil, Nat.zero_add]
    cases hattempts with
    | stranger | busy => exact Nat.le_succ _
    | collected _ _ hremoved _ =>
      apply Nat.le_succ_of_le
      exact Table.card_targets_le waker fun other hwaker ↦ hremoved.waker_kept hwaker
    | parked _ _ _ =>
      refine Nat.le_trans (Finset.card_le_card fun pid hmem ↦ ?_)
        (Finset.card_insert_le wait.target _)
      rw [Table.mem_targets, Table.wakerOf?_setClaim sound] at hmem
      rw [Finset.mem_insert, Table.mem_targets]
      split at hmem
      · next heq => exact .inl heq
      · exact .inr hmem

end Count

/-! ## What a change does to one parked joiner -/

/-- A joiner is parked where it should be: its target runs, is a child of its caller, and has the
joiner's token and waker in its slot. -/
def Parked (table : Table Waker) (wait : Wait) (waker : Waker) : Prop :=
  ∃ record, table.record? wait.target = some record ∧ record.IsRunning ∧
    record.parent = some wait.caller ∧ record.claim = some ⟨wait.token, some waker⟩

section Parked

variable {before : Table Waker} {wait : Wait} {waker : Waker}

theorem parked_iff :
    Parked before wait waker ↔
      before.phaseOf? wait.target = some .running ∧
        before.parentOf? wait.target = some wait.caller ∧
        before.claimOf? wait.target = some ⟨wait.token, some waker⟩ := by
  constructor
  · rintro ⟨record, hrecord, hrunning, hparent, hclaim⟩
    rw [Table.phaseOf?_of_record? hrecord, Table.parentOf?_of_record? hrecord,
      Table.claimOf?_of_record? hrecord]
    exact ⟨congrArg some hrunning, hparent, hclaim⟩
  · rintro ⟨hphase, hparent, hclaim⟩
    obtain ⟨record, hrecord, hrunning⟩ := Option.map_eq_some_iff.1 hphase
    rw [Table.parentOf?_of_record? hrecord] at hparent
    rw [Table.claimOf?_of_record? hrecord] at hclaim
    exact ⟨record, hrecord, hrunning, hparent, hclaim⟩

theorem Parked.wakerOf? (hparked : Parked before wait waker) :
    before.wakerOf? wait.target = some waker := by
  rw [Table.wakerOf?_eq_bind_claimOf?, (parked_iff.1 hparked).2.2, Option.bind_some]

theorem parked_of_inserted {parent : Option Pid} {name : String} {pid : Pid}
    (hparked : Parked before wait waker) (inserted : before.Inserted after parent name pid) :
    Parked after wait waker := by
  rw [parked_iff] at hparked ⊢
  have hne : wait.target ≠ pid := by
    intro heq
    rw [heq, Table.phaseOf?_eq_none_iff.2 inserted.absent] at hparked
    cases hparked.1
  rw [inserted.phaseOf?_eq, inserted.parentOf?_eq, inserted.claimOf?_eq, if_neg hne, if_neg hne,
    if_neg hne]
  exact hparked

theorem parked_of_removed {pid : Pid} (hparked : Parked before wait waker)
    (removed : before.Removed after pid) (hne : wait.target ≠ pid) : Parked after wait waker := by
  rw [parked_iff] at hparked ⊢
  rw [removed.phaseOf?_eq, removed.parentOf?_eq, removed.claimOf?_eq, if_neg hne, if_neg hne,
    if_neg hne]
  exact hparked

theorem parked_of_setClaim {pid : Pid} (sound : before.Sound) (hparked : Parked before wait waker)
    (claim : Option (Claim Waker)) (hne : wait.target ≠ pid) :
    Parked (before.setClaim pid claim) wait waker := by
  rw [parked_iff] at hparked ⊢
  rw [Table.phaseOf?_setClaim sound, Table.parentOf?_setClaim sound, Table.claimOf?_setClaim sound,
    if_neg hne]
  exact hparked

/-- When a process ends its joiner is woken, and so are those of its children. -/
theorem parked_of_ended {pid : Pid} {status : ExitStatus} {wakers : List Waker}
    (sound : before.Sound) (hparked : Parked before wait waker)
    (ended : before.Ended after pid status wakers) :
    Parked after wait waker ∨ waker ∈ wakers := by
  have hwaker := hparked.wakerOf?
  obtain ⟨hphase, hparent, hclaim⟩ := parked_iff.1 hparked
  rw [ended.wakers_eq, List.mem_append, List.mem_filterMap]
  by_cases hself : wait.target = pid
  · rw [← hself, hwaker]
    exact .inr (.inl (List.mem_singleton_self waker))
  by_cases hchild : before.parentOf? wait.target = some pid
  · exact .inr (.inr ⟨wait.target, sound.mem_childrenOf.2 hchild, hwaker⟩)
  · left
    rw [parked_iff, ended.phaseOf?_eq sound, ended.parentOf?_eq sound, ended.claimOf?_eq sound,
      if_neg hself, if_neg (fun h ↦ hchild h.1), if_neg hchild, if_neg hself, if_neg hchild]
    exact ⟨hphase, hparent, hclaim⟩

theorem mem_parked (hparked : Parked before wait waker) : waker ∈ before.parked := by
  have hwaker := hparked.wakerOf?
  rw [Table.parked_eq_filterMap]
  exact List.mem_filterMap.2 ⟨wait.target, Table.mem_keys_of_wakerOf? hwaker, hwaker⟩

/-- Whoever is parked stays parked or is woken, unless he is polled or gives up. -/
theorem Change.parked (sound : kernel.table.Sound) (hparked : Parked kernel.table wait waker)
    (change : kernel.Change demand after loads audible answer)
    (hothers : ∀ other, (∃ used, demand = .join other used) ∨ demand = .leave other →
      other.token ≠ wait.token) :
    Parked after wait waker ∨ waker ∈ audible.filterMap Effect.waker? := by
  obtain ⟨hphase, hparent, hclaim⟩ := parked_iff.1 hparked
  cases change with
  | unchanged | admitted | gone => exact .inl hparked
  | inserted hinserted => exact .inl (parked_of_inserted hparked hinserted)
  | @withdrawn load _ _ _ _ _ hremoved =>
    by_cases hself : wait.target = load.pid
    · rw [Effect.filterMap_waker?_wakes, ← hself, hparked.wakerOf?]
      exact .inr (List.mem_singleton_self waker)
    · exact .inl (parked_of_removed hparked hremoved hself)
  | ended hends =>
    cases hends with
    | left hended _ =>
      rw [Effect.filterMap_waker?_wakes]
      exact parked_of_ended sound hparked hended
    | last hended _ =>
      right
      rw [List.filterMap_append, List.filterMap_append, Effect.filterMap_waker?_wakes,
        Effect.filterMap_waker?_wakes, List.append_assoc, List.mem_append, List.mem_append]
      obtain hmiddle | hmem := parked_of_ended sound hparked hended
      · exact .inr (.inl (mem_parked hmiddle))
      · exact .inl hmem
  | cleared =>
    right
    rw [List.filterMap_append, Effect.filterMap_waker?_wakes]
    exact List.mem_append_left _ (mem_parked hparked)
  | @polled other used _ _ _ hattempts =>
    have hother : other.token ≠ wait.token := hothers other (.inl ⟨used, rfl⟩)
    cases hattempts with
    | stranger | busy => exact .inl hparked
    | collected _ hexited hremoved _ =>
      refine .inl (parked_of_removed hparked hremoved fun heq ↦ ?_)
      rw [← heq, hphase] at hexited
      cases hexited
    | parked _ _ hfree =>
      refine .inl (parked_of_setClaim sound hparked _ fun heq ↦ ?_)
      rw [← heq] at hfree
      exact hother (hfree _ hclaim).symm
  | @released other _ hheld =>
    have hother : other.token ≠ wait.token := hothers other (.inr rfl)
    refine .inl (parked_of_setClaim sound hparked _ fun heq ↦ ?_)
    obtain ⟨claim, hsame, htoken⟩ := hheld
    rw [← heq, hclaim] at hsame
    cases hsame
    exact hother htoken.symm

/-- A joiner that gets nothing yet is parked. -/
theorem parked_of_attempts (sound : before.Sound)
    (hattempts : before.Attempts wait.caller wait.target wait.token waker (.ok none) after) :
    Parked after wait waker := by
  cases hattempts with
  | parked hparent hrunning _ =>
    rw [parked_iff, Table.phaseOf?_setClaim sound, Table.parentOf?_setClaim sound,
      Table.claimOf?_setClaim_self sound _ _ hrunning]
    exact ⟨hrunning, hparent, rfl⟩

/-- A poll that is answered with nothing yet leaves the joiner parked. -/
theorem Change.parked_of_pending (sound : kernel.table.Sound)
    (change : kernel.Change (.join wait waker) after loads audible .pending) :
    Parked after wait waker := by
  cases change with
  | unchanged hvoid _ => cases hvoid
  | polled hattempts _ hpending =>
    have hresult := hpending.1 rfl
    subst hresult
    exact parked_of_attempts sound hattempts

end Parked

/-! ## Wake-ups in a run -/

namespace Step

/-- The wakers that a step uses. -/
def woken (step : Step Waker) : List Waker := step.reply.effects.filterMap Effect.waker?

/-- The waker of a poll that leaves its request parked. -/
def parks? (step : Step Waker) : Option Waker :=
  match step.call, step.reply.answer with
  | .poll _ waker _, .pending => some waker
  | _, _ => none

end Step

variable {past earlier later : List (Step Waker)} {step : Step Waker} {request : RequestId}
  {waker : Waker}

theorem woken_eq (step : Step Waker) :
    step.woken = step.reply.audible.filterMap Effect.waker? :=
  (Effect.filterMap_waker?_audible step.reply.effects).symm

theorem parks?_eq_some_iff (step : Step Waker) (waker : Waker) (sound : step.before.table.Sound) :
    step.parks? = some waker ↔
      ∃ wait, step.demand = .join wait waker ∧ step.reply.answer = .pending := by
  obtain ⟨before, call⟩ := step
  constructor
  · intro hparks
    unfold Step.parks? at hparks
    split at hparks
    · next request used memory hcall hanswer =>
      cases hparks
      cases hcall
      cases leaves_poll sound request waker memory with
      | nothing _ hnot => exact absurd hanswer hnot
      | wait hdemand _ => exact ⟨_, hdemand, hanswer⟩
    · cases hparks
  · rintro ⟨wait, hdemand, hanswer⟩
    obtain ⟨request, memory, rfl⟩ := call_of_join hdemand
    simp only [Step.parks?, hanswer]

/-- A step that does not name a request leaves the wait and its place in the table alone. -/
theorem parked_or_woken_of_untouched (step : Step Waker) {wait : Wait}
    (sound : step.before.table.Sound) (tidy : step.before.Tidy)
    (change : step.before.Change step.demand step.after.table step.after.loads
      step.reply.audible step.reply.answer)
    (hparked : Parked step.before.table wait waker)
    (huntouched : step.call.request? ≠ some wait.token) :
    Parked step.after.table wait waker ∨ waker ∈ step.woken := by
  rw [woken_eq]
  refine change.parked sound hparked fun other hdemand heq ↦ huntouched ?_
  rw [← heq]
  obtain ⟨used, hjoin⟩ | hleave := hdemand
  · obtain ⟨request, memory, hcall⟩ := call_of_join hjoin
    rw [hcall]
    rw [Step.demand, hcall] at hjoin
    exact congrArg some (tidy.token_of_poll hjoin).symm
  · exact tidy.token_of_leave hleave

/-- Since a wait was parked it has been woken, or it is still parked where it should be. -/
theorem Run.parked_or_woken {memory : Memory} (hrun : Run (earlier ++ step :: later) kernel)
    (hcall : step.call = .poll request waker memory) (hpending : step.reply.answer = .pending)
    (huntouched : ∀ next ∈ later, next.call.request? ≠ some request) :
    ∃ wait, kernel.waitOf? request = some wait ∧ wait.token = request ∧
      (waker ∈ later.flatMap Step.woken ∨ Parked kernel.table wait waker) := by
  generalize hpast : earlier ++ step :: later = past at hrun
  induction hrun generalizing later with
  | start => simp at hpast
  | @step past kernel hrun call hsafe ih =>
    obtain rfl | ⟨rest, last, rfl⟩ := List.eq_nil_or_concat later
    · obtain ⟨rfl, hstep⟩ := List.append_inj' hpast rfl
      cases hstep
      subst hcall
      have sound := hrun.sound
      have change := change_of_safe sound hsafe
      cases leaves_poll sound request waker memory with
      | nothing _ hnot => exact absurd hpending hnot
      | @wait wait outcome hdemand hleft =>
        have hanswer : (kernel.perform (.poll request waker memory)).answer = .pending := hpending
        rw [hdemand, hanswer] at change
        have htoken : wait.token = request := hrun.tidy.token_of_poll hdemand
        have hparked := change.parked_of_pending sound
        exact ⟨wait.after outcome, hleft, htoken, .inr hparked⟩
    · rw [List.concat_eq_append, ← List.cons_append, ← List.append_assoc] at hpast
      obtain ⟨rfl, hlast⟩ := List.append_inj' hpast rfl
      cases hlast
      rw [List.concat_eq_append, List.forall_mem_append, List.forall_mem_singleton] at huntouched
      obtain ⟨wait, hwait, htoken, hcase⟩ := ih huntouched.1 rfl
      obtain ⟨entry, hentry, hsame⟩ := Option.bind_eq_some_iff.1 hwait
      refine ⟨wait, ?_, htoken, ?_⟩
      · rw [waitOf?, hrun.tidy.requests_untouched hentry huntouched.2, Option.bind_some, hsame]
      · rw [List.concat_eq_append, List.flatMap_append, List.mem_append, List.flatMap_singleton]
        obtain hwoken | hparked := hcase
        · exact .inl (.inl hwoken)
        · obtain hstill | hnow := parked_or_woken_of_untouched ⟨kernel, call⟩ hrun.sound
            hrun.tidy (change_of_safe hrun.sound hsafe) hparked (htoken ▸ huntouched.2)
          · exact .inr hstill
          · exact .inl (.inr hnow)

/-- Wake-ups so far, and joiners that are still parked, count as many as were ever parked, at
most. -/
theorem Run.count_le [DecidableEq Waker] (hrun : Run past kernel) (waker : Waker) :
    (past.flatMap Step.woken).count waker + (kernel.table.targets waker).card ≤
      (past.filterMap Step.parks?).count waker := by
  induction hrun with
  | start =>
    have hnone : (initial : Kernel Waker).table.targets waker = ∅ :=
      Table.targets_vacated waker .empty
    simp [hnone]
  | @step past kernel hrun call hsafe ih =>
    have change := change_of_safe hrun.sound hsafe
    have hparks := parks?_eq_some_iff ⟨kernel, call⟩ waker hrun.sound
    have hwoken : Step.woken ⟨kernel, call⟩ =
        (kernel.perform call).audible.filterMap Effect.waker? := woken_eq ⟨kernel, call⟩
    rw [List.flatMap_append, List.flatMap_singleton, List.filterMap_append, List.count_append,
      List.count_append, hwoken]
    by_cases hpark : Step.parks? ⟨kernel, call⟩ = some waker
    · obtain ⟨wait, hdemand, -⟩ := hparks.1 hpark
      have hdemand : kernel.demand call = .join wait waker := hdemand
      rw [hdemand] at change
      have hcount := change.count_parked waker hrun.sound
      have hone : ([⟨kernel, call⟩].filterMap Step.parks?).count waker = 1 := by simp [hpark]
      rw [Nat.add_assoc, hone]
      calc
        _ ≤ _ + ((kernel.table.targets waker).card + 1) := Nat.add_le_add_left hcount _
        _ ≤ (past.filterMap Step.parks?).count waker + 1 := Nat.succ_le_succ ih
    · have hcount := change.count waker hrun.sound fun wait hdemand hanswer ↦
        hpark (hparks.2 ⟨wait, hdemand, hanswer⟩)
      rw [Nat.add_assoc]
      calc
        _ ≤ _ + (kernel.table.targets waker).card := Nat.add_le_add_left hcount _
        _ ≤ (past.filterMap Step.parks?).count waker := ih
        _ ≤ _ := Nat.le_add_right _ _

/-- No wake-up is lost, and none is made twice. -/
structure WakeupsKept [DecidableEq Waker] (past : List (Step Waker)) (kernel : Kernel Waker) :
    Prop where
  /-- Take a poll that left a request parked, and suppose that the request was neither polled nor
  dropped since. Then its wait is still there, and either the waker was used since, or the target
  runs, is a child of the wait's caller, and has the wait's token and the waker in its slot. -/
  woken_or_parked {earlier later : List (Step Waker)} {step : Step Waker} {request : RequestId}
    {waker : Waker} {memory : Memory} (hpast : past = earlier ++ step :: later)
    (hcall : step.call = .poll request waker memory) (hpending : step.reply.answer = .pending)
    (huntouched : ∀ next ∈ later, next.call.request? ≠ some request) :
    ∃ wait, kernel.waitOf? request = some wait ∧ wait.token = request ∧
      (waker ∈ later.flatMap Step.woken ∨ Parked kernel.table wait waker)
  /-- A step that takes a joiner's place away, and is not the joiner's own, wakes it. -/
  woken_at_once {step : Step Waker} {wait : Wait} {waker : Waker} (hmem : step ∈ past)
    (hparked : Parked step.before.table wait waker)
    (huntouched : step.call.request? ≠ some wait.token) :
    Parked step.after.table wait waker ∨ waker ∈ step.woken
  /-- A waker is used once at most for every poll that parked with it. -/
  woken_once (waker : Waker) :
    (past.flatMap Step.woken).count waker ≤ (past.filterMap Step.parks?).count waker

/-- Every run keeps its wake-ups. -/
theorem Run.wakeupsKept [DecidableEq Waker] (hrun : Run past kernel) :
    WakeupsKept past kernel := by
  constructor
  case woken_or_parked =>
    rintro earlier later step request waker memory rfl hcall hpending huntouched
    exact hrun.parked_or_woken hcall hpending huntouched
  case woken_at_once =>
    intro step wait waker hmem hparked huntouched
    obtain ⟨earlier, later, rfl⟩ := List.append_of_mem hmem
    obtain ⟨hbefore, hsafe⟩ := hrun.of_append
    exact parked_or_woken_of_untouched step hbefore.sound hbefore.tidy
      (change_of_safe hbefore.sound hsafe) hparked huntouched
  case woken_once => exact fun waker ↦ Nat.le_trans (Nat.le_add_right _ _) (hrun.count_le waker)

/-- In the family the waker that was left with the child is used when the child is killed. -/
theorem wakeupsKept_family :
    (initial.steps family).flatMap Step.woken = [7] ∧
      WakeupsKept (initial.steps family) (initial.reach family) := by
  have hrun : Run (initial.steps family) (initial.reach family) :=
    run_of_calls family (by decide +kernel)
  exact ⟨by decide +kernel, hrun.wakeupsKept⟩

end Lifecycle.Kernel
