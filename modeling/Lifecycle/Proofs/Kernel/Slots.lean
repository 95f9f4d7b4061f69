import Lifecycle.Proofs.Kernel.Attempts

/-!
# Who holds a join slot

A join slot is held by a token, and the token is that of a request which is still there, was parked
by its last poll and waits for the process on behalf of its parent. So nobody is turned away from a
slot that has no living owner, and whoever drops the owner frees the slot.
-/

namespace Lifecycle.Kernel

variable {Waker : Type} {past : List (Step Waker)} {kernel : Kernel Waker} {step : Step Waker}
  {request : RequestId} {wait : Wait} {waker : Waker} {target : Pid} {claim : Claim Waker}

/-- The wait that is polled or given up. -/
def Demand.wait? : Demand Waker → Option Wait
  | .join wait _ | .leave wait => some wait
  | .nothing | .start _ | .settle .. | .finish .. | .clear => none

theorem ne_of_waitless {demand : Demand Waker} (hnone : demand.wait? = none) (wait : Wait)
    (hwait : demand.wait? = some wait) : wait.target ≠ target := by
  rw [hnone] at hwait
  cases hwait

/-! ## Where claims come from -/

/-- How a process comes to have a claim after a demand. -/
inductive ClaimOrigin (before after : Table Waker) (demand : Demand Waker) (answer : Answer)
    (target : Pid) (claim : Claim Waker) : Prop where
  /-- It had it before, and it was not the holder who acted. -/
  | kept (hclaim : before.claimOf? target = some claim)
      (hparent : after.parentOf? target = before.parentOf? target)
      (hphase : after.phaseOf? target = before.phaseOf? target)
      (hothers : ∀ wait, demand.wait? = some wait → wait.target = target →
        before.parentOf? target = some wait.caller → wait.parked = true →
          wait.token ≠ claim.token)
  /-- The process has ended, and the holder was woken. -/
  | woken {old : Claim Waker} {status : ExitStatus} (hdemand : demand = .finish target status)
      (hold : before.claimOf? target = some old) (hclaim : claim = { old with waker := none })
      (hparent : after.parentOf? target = before.parentOf? target)
      (hexited : after.phaseOf? target = some (.exited status))
  /-- The holder has just been parked. -/
  | parked {wait : Wait} {waker : Waker} (hdemand : demand = .join wait waker)
      (htarget : wait.target = target) (hanswer : answer = .pending)
      (hclaim : claim = ⟨wait.token, some waker⟩)
      (hparent : after.parentOf? target = some wait.caller)
      (hrunning : after.phaseOf? target = some .running)

section Origin

variable {demand : Demand Waker} {before after : Table Waker} {answer : Answer}

/-- A claim on a process that a demand has nothing to do with. -/
theorem claimOrigin_of_same (hclaim : before.claimOf? target = some claim)
    (hparent : after.parentOf? target = before.parentOf? target)
    (hphase : after.phaseOf? target = before.phaseOf? target)
    (hother : ∀ wait, demand.wait? = some wait → wait.target ≠ target) :
    ClaimOrigin before after demand answer target claim :=
  .kept hclaim hparent hphase fun wait hwait htarget ↦ absurd htarget (hother wait hwait)

theorem claimOrigin_of_removed {pid : Pid} (removed : before.Removed after pid)
    (hother : pid ≠ target → ∀ wait, demand.wait? = some wait → wait.target ≠ target)
    (hclaim : after.claimOf? target = some claim) :
    ClaimOrigin before after demand answer target claim := by
  have hne : target ≠ pid := by
    rintro rfl
    rw [removed.claimOf?_eq, if_pos rfl] at hclaim
    cases hclaim
  rw [removed.claimOf?_eq, if_neg hne] at hclaim
  refine claimOrigin_of_same hclaim ?_ ?_ (hother hne.symm)
  · rw [removed.parentOf?_eq, if_neg hne]
  · rw [removed.phaseOf?_eq, if_neg hne]

theorem claimOrigin_of_ended {pid : Pid} {status : ExitStatus} {wakers : List Waker}
    (sound : before.Sound) (ended : before.Ended after pid status wakers)
    (hclaim : after.claimOf? target = some claim) :
    ClaimOrigin before after (.finish pid status) answer target claim := by
  have hparentOf := ended.parentOf?_eq sound target
  have hphaseOf := ended.phaseOf?_eq sound target
  rw [ended.claimOf?_eq sound] at hclaim
  split at hclaim
  · next hself =>
    subst hself
    rw [if_neg (sound.parent_ne target)] at hparentOf
    rw [if_pos rfl] at hphaseOf
    split at hclaim
    · cases hclaim
    · next hparent =>
      rw [if_neg hparent] at hphaseOf
      obtain ⟨old, hold, hsame⟩ := Option.map_eq_some_iff.1 hclaim
      exact .woken rfl hold hsame.symm hparentOf hphaseOf
  · next hself =>
    split at hclaim
    · cases hclaim
    · next hstranger =>
      rw [if_neg hstranger] at hparentOf
      rw [if_neg hself, if_neg fun h ↦ hstranger h.1] at hphaseOf
      exact claimOrigin_of_same hclaim hparentOf hphaseOf (ne_of_waitless rfl)

/-- A claim that is set on one process leaves the others alone. -/
theorem claimOrigin_of_setClaim {pid : Pid} {set : Option (Claim Waker)} (sound : before.Sound)
    (hother : pid ≠ target → ∀ wait, demand.wait? = some wait → wait.target ≠ target)
    (hclaim : (before.setClaim pid set).claimOf? target = some claim)
    (hset : pid = target → set = some claim →
      ClaimOrigin before (before.setClaim pid set) demand answer target claim) :
    ClaimOrigin before (before.setClaim pid set) demand answer target claim := by
  rw [Table.claimOf?_setClaim sound] at hclaim
  split at hclaim
  · next hself =>
    obtain ⟨-, -, hsame⟩ := Option.bind_eq_some_iff.1 hclaim
    exact hset hself.symm hsame
  · next hne =>
    exact claimOrigin_of_same hclaim (Table.parentOf?_setClaim sound _ _ _)
      (Table.phaseOf?_setClaim sound _ _ _) (hother fun heq ↦ hne heq.symm)

theorem claimOrigin_of_attempts {result : Except Errno (Option ExitStatus)}
    (sound : before.Sound)
    (attempts : before.Attempts wait.caller wait.target wait.token waker result after)
    (hpending : answer = .pending ↔ result = .ok none)
    (hclaim : after.claimOf? target = some claim) :
    ClaimOrigin before after (.join wait waker) answer target claim := by
  cases attempts with
  | stranger hparent =>
    refine .kept hclaim rfl rfl ?_
    rintro _ ⟨⟩ rfl hcaller
    exact absurd hcaller hparent
  | busy _ hheld hother =>
    refine .kept hclaim rfl rfl ?_
    rintro _ ⟨⟩ rfl - - htoken
    rw [hclaim, Option.some_inj] at hheld
    exact hother (hheld ▸ htoken.symm)
  | collected _ _ hremoved _ =>
    refine claimOrigin_of_removed hremoved ?_ hclaim
    rintro hne _ ⟨⟩ heq
    exact hne heq
  | parked hparent hrunning _ =>
    refine claimOrigin_of_setClaim sound ?_ hclaim ?_
    · rintro hne _ ⟨⟩ heq
      exact hne heq
    · rintro rfl ⟨⟩
      refine .parked rfl rfl (hpending.2 rfl) rfl ?_ ?_
      · rw [Table.parentOf?_setClaim sound]
        exact hparent
      · rw [Table.phaseOf?_setClaim sound]
        exact hrunning

theorem Change.claim_origin {loads : List Load} {audible : List (Effect Waker)}
    (change : kernel.Change demand after loads audible answer) (sound : kernel.table.Sound)
    (hclaim : after.claimOf? target = some claim) :
    ClaimOrigin kernel.table after demand answer target claim := by
  cases change with
  | unchanged hvoid =>
    refine .kept hclaim rfl rfl ?_
    rintro wait hwait rfl - hparked htoken
    cases hvoid with
    | leave hidle =>
      cases hwait
      exact hidle.elim (· hparked) (· ⟨claim, hclaim, htoken.symm⟩)
    | nothing | start | finish => cases hwait
  | @inserted load _ _ _ hinserted =>
    have hne : target ≠ load.pid := by
      rintro rfl
      rw [hinserted.claimOf?_eq, if_pos rfl] at hclaim
      cases hclaim
    rw [hinserted.claimOf?_eq, if_neg hne] at hclaim
    refine claimOrigin_of_same hclaim ?_ ?_ (ne_of_waitless rfl)
    · rw [hinserted.parentOf?_eq, if_neg hne]
    · rw [hinserted.phaseOf?_eq, if_neg hne]
  | admitted | gone => exact claimOrigin_of_same hclaim rfl rfl (ne_of_waitless rfl)
  | withdrawn _ hremoved =>
    exact claimOrigin_of_removed hremoved (fun _ ↦ ne_of_waitless rfl) hclaim
  | ended hends =>
    cases hends with
    | left hended _ => exact claimOrigin_of_ended sound hended hclaim
    | last _ _ => simp [Table.claimOf?] at hclaim
  | cleared => simp [Table.claimOf?] at hclaim
  | polled hattempts _ hpending => exact claimOrigin_of_attempts sound hattempts hpending hclaim
  | released =>
    refine claimOrigin_of_setClaim sound ?_ hclaim ?_
    · rintro hne _ ⟨⟩ heq
      exact hne heq
    · intro _ hset
      cases hset

end Origin

/-! ## Owners -/

/-- The last call that named a request was a poll that parked it with a waker. -/
def ParkedLast (past : List (Step Waker)) (request : RequestId) (waker : Waker) : Prop :=
  ∃ earlier step later memory, past = earlier ++ step :: later ∧
    step.call = .poll request waker memory ∧ step.reply.answer = .pending ∧
    ∀ next ∈ later, next.call.request? ≠ some request

theorem ParkedLast.concat (hparked : ParkedLast past request waker)
    (huntouched : step.call.request? ≠ some request) :
    ParkedLast (past ++ [step]) request waker := by
  obtain ⟨earlier, former, later, memory, rfl, hcall, hpending, hlater⟩ := hparked
  refine ⟨earlier, former, later ++ [step], memory, by simp, hcall, hpending, ?_⟩
  rw [List.forall_mem_append, List.forall_mem_singleton]
  exact ⟨hlater, huntouched⟩

/-- A claim on a process belongs to the wait of a request that is still there. -/
structure Owned (past : List (Step Waker)) (kernel : Kernel Waker) (target : Pid)
    (claim : Claim Waker) (wait : Wait) (waker : Waker) : Prop where
  waitOf?_eq : kernel.waitOf? claim.token = some wait
  target_eq : wait.target = target
  parent_eq : kernel.table.parentOf? target = some wait.caller
  parked : wait.parked = true
  parked_last : ParkedLast past claim.token waker
  /-- The waker stays in the claim until the process ends. -/
  waker_eq :
    claim.waker = if kernel.table.phaseOf? target = some .running then some waker else none

/-- A call that names the request of a wait makes a demand on that wait. -/
theorem demand_of_waitOf? {call : Call Waker} (hwait : kernel.waitOf? request = some wait)
    (hcall : call.request? = some request) : (kernel.demand call).wait? = some wait := by
  obtain ⟨entry, hentry, hsame⟩ := Option.bind_eq_some_iff.1 hwait
  cases call with
  | poll other _ _ | abandon other =>
    cases hcall
    cases entry with
    | join | collecting =>
      cases hsame
      simp only [demand, hentry, Demand.wait?]
    | syscall => cases hsame
  | spawn | finishLoad | terminate | shutdown | openJoin | openSyscall => cases hcall

/-- An owner that is left alone stays what he is. -/
theorem Owned.concat {old : Claim Waker} (owned : Owned past step.before target old wait waker)
    (tidy : step.before.Tidy) (huntouched : step.call.request? ≠ some old.token)
    (htoken : claim.token = old.token)
    (hparent : step.after.table.parentOf? target = step.before.table.parentOf? target)
    (hwaker : claim.waker =
      if step.after.table.phaseOf? target = some .running then some waker else none) :
    Owned (past ++ [step]) step.after target claim wait waker := by
  obtain ⟨entry, hentry, hsame⟩ := Option.bind_eq_some_iff.1 owned.waitOf?_eq
  constructor
  case waitOf?_eq =>
    have hkept := tidy.requests_untouched hentry huntouched
    rw [htoken, waitOf?, Step.after, Step.reply, hkept, Option.bind_some, hsame]
  case target_eq => exact owned.target_eq
  case parent_eq => exact hparent.trans owned.parent_eq
  case parked => exact owned.parked
  case parked_last => exact htoken ▸ owned.parked_last.concat huntouched
  case waker_eq => exact hwaker

/-- Whoever has just been parked owns the slot. -/
theorem owned_of_parked (sound : step.before.table.Sound) (tidy : step.before.Tidy)
    (hdemand : step.demand = .join wait waker) (hanswer : step.reply.answer = .pending)
    (hparent : step.after.table.parentOf? wait.target = some wait.caller)
    (hrunning : step.after.table.phaseOf? wait.target = some .running) :
    ∃ parked, Owned (past ++ [step]) step.after wait.target ⟨wait.token, some waker⟩ parked
      waker := by
  obtain ⟨kernel, call⟩ := step
  obtain ⟨request, memory, rfl⟩ := call_of_join hdemand
  have htoken : wait.token = request := tidy.token_of_poll hdemand
  cases leaves_poll sound request waker memory with
  | nothing _ hnot => exact absurd hanswer hnot
  | @wait polled outcome hpolled hleft hshows =>
    have hsame : Demand.join wait waker = .join polled waker := hdemand.symm.trans hpolled
    rw [Demand.join.injEq] at hsame
    obtain ⟨rfl, -⟩ := hsame
    have houtcome : outcome = none := hshows.pending_iff.1 hanswer
    subst houtcome
    refine ⟨wait.after none, ?_, rfl, hparent, rfl, ?_, ?_⟩
    · rw [htoken]
      exact hleft
    · exact ⟨past, ⟨kernel, .poll request waker memory⟩, [], memory, rfl, by rw [htoken], hanswer,
        nofun⟩
    · rw [if_pos hrunning]

theorem Run.owned (hrun : Run past kernel) (hclaim : kernel.table.claimOf? target = some claim) :
    ∃ wait waker, Owned past kernel target claim wait waker := by
  induction hrun generalizing target claim with
  | start => simp [initial, Table.claimOf?] at hclaim
  | @step past kernel hrun call hsafe ih =>
    let step : Step Waker := ⟨kernel, call⟩
    have huntouched {old : Claim Waker} {wait : Wait} {waker : Waker}
        (owned : Owned past kernel target old wait waker)
        (hothers : (kernel.demand call).wait? ≠ some wait) :
        step.call.request? ≠ some old.token :=
      fun htouched ↦ hothers (demand_of_waitOf? owned.waitOf?_eq htouched)
    cases (step.change hrun.sound hsafe).claim_origin hrun.sound hclaim with
    | kept hbefore hparent hphase hothers =>
      obtain ⟨wait, waker, owned⟩ := ih hbefore
      have here : Owned past step.before target claim wait waker := owned
      have htoken : wait.token = claim.token := hrun.tidy.token_eq owned.waitOf?_eq
      have hleft : step.call.request? ≠ some claim.token := huntouched owned fun hwait ↦
        hothers wait hwait owned.target_eq owned.parent_eq owned.parked htoken
      refine ⟨wait, waker, here.concat hrun.tidy hleft rfl hparent ?_⟩
      rw [hphase]
      exact owned.waker_eq
    | woken hdemand hold hsame hparent hexited =>
      obtain ⟨wait, waker, owned⟩ := ih hold
      have here : Owned past step.before target _ wait waker := owned
      have hleft := huntouched owned fun hwait ↦ by
        have hnone : step.demand.wait? = some wait := hwait
        rw [hdemand] at hnone
        cases hnone
      subst hsame
      refine ⟨wait, waker, here.concat hrun.tidy hleft rfl hparent ?_⟩
      rw [hexited, if_neg (by simp)]
    | @parked wait waker hdemand htarget hanswer hsame hparent hrunning =>
      subst hsame htarget
      obtain ⟨parked, owned⟩ :=
        owned_of_parked hrun.sound hrun.tidy hdemand hanswer hparent hrunning
      exact ⟨parked, waker, owned⟩

/-! ## Slots in a run -/

/-- To drop a request gives its wait up. -/
theorem abandon_of_waitOf? (hwait : kernel.waitOf? request = some wait) :
    kernel.abandon request =
      kernel.act wait.abandon (fun kernel _ ↦ (kernel.forget request, .done))
        (·.forget request) := by
  obtain ⟨entry, hentry, hsame⟩ := Option.bind_eq_some_iff.1 hwait
  cases entry with
  | join | collecting =>
    cases hsame
    simp only [abandon, hentry]
  | syscall => cases hsame

/-- Nobody but a living owner holds a slot, and it goes with him. -/
structure SlotsKept (past : List (Step Waker)) (kernel : Kernel Waker) : Prop where
  owned {target : Pid} {claim : Claim Waker} (hclaim : kernel.table.claimOf? target = some claim) :
    ∃ wait waker, Owned past kernel target claim wait waker
  /-- No two waits have the same token. -/
  token_eq {request : RequestId} {wait : Wait} (hwait : kernel.waitOf? request = some wait) :
    wait.token = request
  /-- A joiner is told that the slot is taken only while another one owns it. -/
  busy {step : Step Waker} {wait : Wait} {waker : Waker} (hnow : step.before = kernel)
    (hdemand : step.demand = .join wait waker) (hbusy : step.reply.answer.IsBusy) :
    ∃ claim owner left, kernel.table.claimOf? wait.target = some claim ∧
      claim.token ≠ wait.token ∧ owner.caller = wait.caller ∧
      Owned past kernel wait.target claim owner left
  /-- To drop the owner frees the slot, and changes nothing else. -/
  freed {target : Pid} {claim : Claim Waker} (hclaim : kernel.table.claimOf? target = some claim) :
    (kernel.perform (.abandon claim.token)).answer = .done ∧
      (kernel.perform (.abandon claim.token)).kernel.table = kernel.table.setClaim target none ∧
      (kernel.perform (.abandon claim.token)).kernel.table.claimOf? target = none

/-- No run leaks a slot. -/
theorem Run.slotsKept (hrun : Run past kernel) : SlotsKept past kernel := by
  constructor
  case owned => exact hrun.owned
  case token_eq => exact hrun.tidy.token_eq
  case busy =>
    rintro step wait waker rfl hdemand hbusy
    have hattempted := Step.attempted hrun.sound hdemand
    have hrefused : wait.outcomeIn step.before.table = Wait.outcomeOf (.error .EBUSY) :=
      hattempted.shown.outcome_of_isBusy hbusy
    obtain ⟨hparent, claim, hclaim, hother⟩ :=
      Table.joinResult_eq_busy_iff.1 (Wait.outcomeOf_injective hrefused)
    obtain ⟨owner, left, owned⟩ := hrun.owned hclaim
    have hcaller := owned.parent_eq
    rw [hparent, Option.some_inj] at hcaller
    exact ⟨claim, owner, left, hclaim, hother, hcaller.symm, owned⟩
  case freed =>
    intro target claim hclaim
    obtain ⟨wait, waker, owned⟩ := hrun.owned hclaim
    have htoken := hrun.tidy.token_eq owned.waitOf?_eq
    have hheld : kernel.table.IsHeld wait.target wait.token := by
      rw [owned.target_eq, htoken]
      exact ⟨claim, hclaim, rfl⟩
    obtain ⟨effects, -, hact⟩ := act_of_ok
      (fun kernel _ ↦ (kernel.forget claim.token, Answer.done)) (·.forget claim.token)
      (Wait.abandon_held owned.parked hheld)
    have hreply : kernel.perform (.abandon claim.token) = _ :=
      (abandon_of_waitOf? owned.waitOf?_eq).trans hact
    rw [hreply, owned.target_eq]
    refine ⟨rfl, rfl, ?_⟩
    change (kernel.table.setClaim target none).claimOf? target = none
    rw [Table.claimOf?_setClaim hrun.sound, if_pos rfl]
    exact Option.bind_eq_none_iff.2 fun _ _ ↦ rfl

/-- In the family the root's wait owns the slot of the child while both run. -/
theorem slotsKept_family :
    ((initial.reach (family.take 6)).table.claimOf? 2).map (·.token) = some 0 ∧
      SlotsKept (initial.steps (family.take 6)) (initial.reach (family.take 6)) := by
  have hrun : Run (initial.steps (family.take 6)) (initial.reach (family.take 6)) :=
    run_of_calls (family.take 6) (by decide +kernel)
  exact ⟨by decide +kernel, hrun.slotsKept⟩

end Lifecycle.Kernel
