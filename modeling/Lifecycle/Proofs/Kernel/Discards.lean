import Lifecycle.Proofs.Kernel.Seclusion
import Lifecycle.Proofs.Kernel.Service
import Lifecycle.Proofs.Losses

/-!
# Which wakers a call loses

If loaders make no calls, a waker is lost only when the request that it was left for is polled or
dropped: it is the waker of a claim with that request's token.
-/

namespace Lifecycle

open Lifecycle.Action

variable {Waker : Type} {scene last : Scene Waker} {lost : Waker}

/-! ## Joins -/

namespace Table

variable {table : Table Waker} {caller target : Pid} {token : Nat} {waker : Waker}

/-- A claim on a process that belongs to a token has a waker. -/
def Claims (table : Table Waker) (target : Pid) (token : Nat) (waker : Waker) : Prop :=
  ∃ claim, table.claimOf? target = some claim ∧ claim.token = token ∧ claim.waker = some waker

/-- The waker of a claim that is replaced or dropped. -/
theorem lost_of_discardClaim {record : Record Waker} {effects : List (Effect Waker)}
    (hrecord : table.record? target = some record)
    (htoken : ∀ claim, record.claim = some claim → claim.token = token)
    (hmem : .discard lost ∈ effects ++ (record.claim.bind (·.waker)).toList.map .discard) :
    .discard lost ∈ effects ∨ table.Claims target token lost := by
  obtain hbefore | hlost := List.mem_append.1 hmem
  · exact .inl hbefore
  · obtain ⟨waker, hwaker, hsame⟩ := List.mem_map.1 hlost
    cases hsame
    obtain ⟨claim, hclaim, hleft⟩ := Option.bind_eq_some_iff.1 (Option.mem_toList.1 hwaker)
    exact .inr ⟨claim, (claimOf?_of_record? hrecord).trans hclaim, htoken claim hclaim, hleft⟩

theorem lost_of_join {result : Except Errno (Option ExitStatus)}
    (hdone : (join caller target token waker).run scene = .ofResult last result)
    (hmem : .discard lost ∈ last.effects) :
    .discard lost ∈ scene.effects ∨ scene.table.Claims target token lost := by
  have hrefused {cause : Errno} {left : Scene Waker}
      (hsame : .failed (.refused cause) left = Outcome.ofResult last result) : left = last := by
    cases result <;> cases hsame
    rfl
  unfold join discardClaim at hdone
  split at hdone
  · exact .inl (hrefused hdone ▸ hmem)
  simp only [run_bind, run_table, Outcome.andThen_done] at hdone
  split at hdone
  · exact .inl (hrefused hdone ▸ hmem)
  next record hrecord =>
  split at hdone
  · exact .inl (hrefused hdone ▸ hmem)
  split at hdone
  · exact .inl (hrefused hdone ▸ hmem)
  next hany =>
  have htoken (claim : Claim Waker) (hclaim : record.claim = some claim) : claim.token = token := by
    simpa [hclaim] using hany
  split at hdone
  · simp only [run_bind, run_update, run_forM_discard, Outcome.andThen_done, List.forM_eq_forM]
      at hdone
    cases hreap : (reap target).run _ with
    | done status left =>
      rw [hreap] at hdone
      cases result <;> cases hdone
      exact lost_of_discardClaim hrecord htoken (saving_reap target _ _ _ hreap lost hmem)
    | failed failure left =>
      rw [hreap] at hdone
      cases result <;> cases hdone
      have hsame := reap_refused hreap
      subst hsame
      exact lost_of_discardClaim hrecord htoken hmem
  · simp only [run_bind, run_update, run_forM_discard, Outcome.andThen_done, List.forM_eq_forM]
      at hdone
    cases result <;> cases hdone
    exact lost_of_discardClaim hrecord htoken hmem

theorem lost_of_releaseSlot
    (hmem : .discard lost ∈ ((releaseSlot target token).run scene).scene.effects) :
    .discard lost ∈ scene.effects ∨ scene.table.Claims target token lost := by
  unfold releaseSlot discardClaim at hmem
  simp only [run_bind, run_table, Outcome.andThen_done] at hmem
  split at hmem
  · exact .inl hmem
  next record hrecord =>
  split at hmem
  · next hany =>
    have htoken (claim : Claim Waker) (hclaim : record.claim = some claim) :
        claim.token = token := by
      simpa [hclaim] using hany
    simp only [run_bind, run_update, run_forM_discard, run_note, Outcome.andThen_done,
      List.forM_eq_forM, Outcome.scene_done] at hmem
    obtain hbefore | hnote := List.mem_append.1 hmem
    · exact lost_of_discardClaim hrecord htoken hbefore
    · cases List.mem_singleton.1 hnote
  · exact .inl hmem

end Table

namespace Kernel

variable {past : List (Step Waker)} {kernel : Kernel Waker} {wait : Wait} {waker : Waker}
  {load : Load}

/-! ## Waits -/

theorem lost_of_poll {outcome : Option (Except Errno ExitStatus)}
    (hdone : (wait.poll waker).run scene = .done outcome last)
    (hmem : .discard lost ∈ last.effects) :
    .discard lost ∈ scene.effects ∨ scene.table.Claims wait.target wait.token lost := by
  obtain ⟨result, middle, hfirst, hrest⟩ := run_bind_eq_done hdone
  have hjoin := run_attempt_eq_done (run_onFailure_eq_done hfirst)
  refine Table.lost_of_join hjoin ?_
  split at hrest
  · split at hrest
    · exact (sparing_pure _).saving _ _ _ hrest lost hmem
    · exact ((sparing_note _).bind fun _ ↦ sparing_pure _).saving _ _ _ hrest lost hmem
  · exact ((sparing_note _).bind fun _ ↦ sparing_pure _).saving _ _ _ hrest lost hmem
  · exact ((sparing_note _).bind fun _ ↦ sparing_pure _).saving _ _ _ hrest lost hmem

theorem lost_of_abandon (hmem : .discard lost ∈ (wait.abandon.run scene).scene.effects) :
    .discard lost ∈ scene.effects ∨ scene.table.Claims wait.target wait.token lost := by
  unfold Wait.abandon at hmem
  split at hmem
  · exact Table.lost_of_releaseSlot hmem
  · exact .inl hmem

theorem lost_of_pollCollecting {statusAddress : Nat} {memory : Memory} {progress : Progress}
    (hdone : (pollCollecting wait statusAddress waker memory).run scene = .done progress last)
    (hmem : .discard lost ∈ last.effects) :
    .discard lost ∈ scene.effects ∨ scene.table.Claims wait.target wait.token lost := by
  obtain ⟨outcome, middle, hpoll, hrest⟩ := run_bind_eq_done hdone
  refine lost_of_poll hpoll ?_
  split at hrest
  · exact (sparing_pure _).saving _ _ _ hrest lost hmem
  · exact ((Syscall.sparing_answerJoin _ _ _).bind fun _ ↦ sparing_pure _).saving _ _ _ hrest lost
      hmem

/-! ## Syscalls -/

/-- To end a process that runs is never refused. -/
theorem terminate_ne_refused {pid : Pid} {status : ExitStatus} {cause : Errno}
    (sound : scene.table.Sound) (hrunning : scene.table.IsRunning pid) :
    (terminate pid status).run scene ≠ .failed (.refused cause) last := by
  intro hrefused
  obtain ⟨habsent, -⟩ | ⟨-, -, hfaults⟩ | ⟨after, audible, -, hyields⟩ :=
    terminate_spec sound pid status
  · rw [Table.isRunning_iff_phaseOf?, habsent] at hrunning
    cases hrunning
  · obtain ⟨cause, left, hrun⟩ := hfaults scene.effects
    rw [hrefused] at hrun
    cases hrun
  · obtain ⟨added, -, hrun⟩ := hyields scene.effects
    rw [hrefused] at hrun
    cases hrun

theorem lost_of_attempt {α : Type} {action : Action Waker α} {result : Except Errno α}
    (saving : action.Saving)
    (hallowed : ∀ cause left, action.run scene ≠ .failed (.refused cause) left)
    (hdone : (attempt action).run scene = .done result last) (hmem : .discard lost ∈ last.effects) :
    .discard lost ∈ scene.effects := by
  have hrun := run_attempt_eq_done hdone
  cases result with
  | ok value => exact saving scene value last hrun lost hmem
  | error cause => exact absurd hrun (hallowed cause last)

theorem lost_of_note {notice : Notice} {value : Unit}
    (hdone : (note notice).run scene = .done value last) (hmem : .discard lost ∈ last.effects) :
    .discard lost ∈ scene.effects :=
  (sparing_note notice).saving _ _ _ hdone lost hmem

theorem table_of_note {notice : Notice} {value : Unit}
    (hdone : (note notice).run scene = .done value last) : last.table = scene.table := by
  cases hdone
  rfl

section Running

variable {call : Syscall} {memory : Memory} {pid : Pid} (sound : scene.table.Sound)
  (hrunning : scene.table.IsRunning pid)

include sound hrunning

theorem lost_of_kill {value : Unit} (hdone : (Syscall.kill pid).run scene = .done value last)
    (hmem : .discard lost ∈ last.effects) : .discard lost ∈ scene.effects := by
  obtain ⟨result, middle, hkilled, hrest⟩ := run_bind_eq_done hdone
  refine lost_of_attempt (saving_terminate pid .killed)
    (fun _ _ ↦ terminate_ne_refused sound hrunning) hkilled ?_
  split at hrest
  · exact (sparing_pure _).saving _ _ _ hrest lost hmem
  · exact lost_of_note hrest hmem

theorem lost_of_exit {code : Int32} {result : Except Errno Unit}
    (hdone : (attempt (Syscall.exit pid code)).run scene = .done result last)
    (hmem : .discard lost ∈ last.effects) : .discard lost ∈ scene.effects := by
  refine lost_of_attempt (.bind (sparing_note _).saving fun _ ↦ saving_terminate pid _) ?_ hdone
    hmem
  intro cause left hrefused
  rw [run_bind, run_note, Outcome.andThen_done] at hrefused
  exact terminate_ne_refused (by exact sound) (by exact hrunning) hrefused

end Running

theorem lost_of_start {call : Syscall} {memory : Memory} {started : Syscall.Started}
    (sound : scene.table.Sound) (hdone : (call.start memory).run scene = .done started last)
    (hmem : .discard lost ∈ last.effects) : .discard lost ∈ scene.effects := by
  unfold Syscall.start at hdone
  obtain ⟨current, first, htable, hdone⟩ := run_bind_eq_done hdone
  cases htable
  split at hdone
  · exact ((sparing_note _).bind fun _ ↦ sparing_pure _).saving _ _ _ hdone lost hmem
  next hstopped =>
  have hrunning := not_not.1 hstopped
  split at hdone
  · obtain ⟨_, middle, hnote, hdone⟩ := run_bind_eq_done hdone
    obtain ⟨_, final, hkill, hdone⟩ := run_bind_eq_done hdone
    cases hdone
    rw [← table_of_note hnote] at sound hrunning
    exact lost_of_note hnote (lost_of_kill sound hrunning hkill hmem)
  next kind hkind =>
  obtain ⟨_, middle, hnote, hdone⟩ := run_bind_eq_done hdone
  refine lost_of_note hnote ?_
  rw [← table_of_note hnote] at sound hrunning
  split at hdone
  · exact ((Syscall.sparing_halt _).bind fun _ ↦ sparing_pure _).saving _ _ _ hdone lost hmem
  · obtain ⟨result, final, hexit, hdone⟩ := run_bind_eq_done hdone
    have hlast : last = final := by
      split at hdone <;> cases hdone <;> rfl
    subst hlast
    exact lost_of_exit sound hrunning hexit hmem
  · refine ((Syscall.sparing_exec _ _ _ _ _).attempt.bind fun result ↦ ?_).saving _ _ _ hdone lost
      hmem
    split
    · exact sparing_pure _
    · exact (sparing_note _).bind fun _ ↦ sparing_pure _
  · split at hdone
    · exact (sparing_pure _).saving _ _ _ hdone lost hmem
    · exact ((sparing_note _).bind fun _ ↦ sparing_pure _).saving _ _ _ hdone lost hmem

/-! ## Loads -/

theorem withdraw_ne_refused {pid : Pid} {cause : Errno} (sound : scene.table.Sound) :
    (Table.withdraw pid).run scene ≠ .failed (.refused cause) last := by
  intro hrefused
  obtain ⟨-, hyields⟩ | ⟨-, -, hfaults⟩ | ⟨after, -, -, hyields⟩ := withdraw_spec sound pid
  · obtain ⟨added, -, hrun⟩ := hyields scene.effects
    rw [hrefused] at hrun
    cases hrun
  · obtain ⟨cause, left, hrun⟩ := hfaults scene.effects
    rw [hrefused] at hrun
    cases hrun
  · obtain ⟨added, -, hrun⟩ := hyields scene.effects
    rw [hrefused] at hrun
    cases hrun

theorem lost_of_endLoad {outcome : Except LoadFailure Entry} {result : Except Errno Pid}
    (sound : scene.table.Sound)
    (hdone : (endLoad load outcome).run scene = .ofResult last result)
    (hmem : .discard lost ∈ last.effects) : .discard lost ∈ scene.effects := by
  have hlast : last = ((endLoad load outcome).run scene).scene := by
    rw [hdone]
    cases result <;> rfl
  rw [hlast] at hmem
  cases outcome with
  | ok entry =>
    have hsparing : (endLoad load (.ok entry) : Action Waker Pid).Sparing :=
      .bind (sparing_note _) fun _ ↦ .bind sparing_table fun _ ↦ .bind (sparing_emit nofun) fun _ ↦
        sparing_pure _
    exact hsparing scene lost hmem
  | error cause =>
    unfold endLoad at hdone hmem
    simp only [run_bind, run_note, Outcome.andThen_done] at hdone hmem
    have hbefore {effects : List (Effect Waker)} {notice : Notice}
        (h : .discard lost ∈ effects ++ [.note notice]) : .discard lost ∈ effects :=
      (List.mem_append.1 h).elim id fun hlast ↦ nomatch List.mem_singleton.1 hlast
    apply hbefore
    cases hrun : (Table.withdraw load.pid).run _ with
    | done stray middle =>
      rw [hrun] at hmem
      have hrest : (do stray.toList.forM wake; refuse cause.toErrno : Action Waker Pid).Sparing :=
        .bind (sparing_forM _ sparing_wake) fun _ ↦ sparing_refuse _
      exact Table.saving_withdraw load.pid _ _ _ hrun lost (hrest middle lost hmem)
    | failed failure middle =>
      cases failure with
      | refused cause => exact absurd hrun (withdraw_ne_refused sound)
      | fault fault =>
        rw [hrun] at hdone
        cases result <;> cases hdone

theorem lost_of_answerExec {outcome : Except LoadFailure Entry} {result : Except Errno Int}
    (sound : scene.table.Sound)
    (hdone : (Syscall.answerExec load outcome).run scene = .ofResult last result)
    (hmem : .discard lost ∈ last.effects) : .discard lost ∈ scene.effects := by
  cases result with
  | ok value =>
    obtain ⟨attempted, middle, hattempt, hrest⟩ := run_bind_eq_done hdone
    refine lost_of_endLoad sound (run_attempt_eq_done hattempt) ?_
    split at hrest
    · exact (sparing_pure _).saving _ _ _ hrest lost hmem
    · exact ((sparing_note _).bind fun _ ↦ sparing_pure _).saving _ _ _ hrest lost hmem
  | error cause =>
    obtain ⟨ended, after, audible, -, hyields⟩ | ⟨-, hfaults⟩ := endLoad_spec sound load outcome
    · obtain ⟨added, -, hrun⟩ := answerExec_yields hyields scene.effects
      rw [hdone] at hrun
      cases hrun
    · have hstops : (Syscall.answerExec load outcome).Faults scene.table := hfaults.attempt.bind
      obtain ⟨fault, left, hrun⟩ := hstops scene.effects
      rw [hdone] at hrun
      cases hrun

/-! ## Calls -/

section Act

variable {α : Type} {acting : Kernel Waker} {action : Action Waker α}
  {settle : Kernel Waker → α → Kernel Waker × Answer} {unsettle : Kernel Waker → Kernel Waker}

theorem effects_act (acting : Kernel Waker) (action : Action Waker α)
    (settle : Kernel Waker → α → Kernel Waker × Answer) (unsettle : Kernel Waker → Kernel Waker) :
    (acting.act action settle unsettle).effects =
      (action.run ⟨acting.table, []⟩).scene.effects := by
  unfold act
  split
  all_goals
    next hrun =>
    rw [hrun]
    rfl

/-- How the action of a call ends that does not stop on a fault. -/
theorem run_of_safe (hsafe : ¬ (acting.act action settle unsettle).Faulted) :
    ∃ result last, action.run ⟨acting.table, []⟩ = .ofResult last result ∧
      (acting.act action settle unsettle).effects = last.effects ∧
      ∀ cause, result = .error cause →
        (acting.act action settle unsettle).answer = .refused cause := by
  rw [effects_act]
  cases hrun : action.run ⟨acting.table, []⟩ with
  | done value last => exact ⟨.ok value, last, rfl, rfl, nofun⟩
  | failed failure last =>
    cases failure with
    | refused cause =>
      refine ⟨.error cause, last, rfl, rfl, ?_⟩
      rintro _ ⟨⟩
      rw [act, hrun]
      rfl
    | fault fault =>
      refine absurd ⟨fault, ?_⟩ hsafe
      rw [act, hrun]
      rfl

theorem not_lost_of_sparing (sparing : action.Sparing) :
    .discard lost ∉ (acting.act action settle unsettle).effects := by
  intro hmem
  rw [effects_act] at hmem
  exact List.not_mem_nil (sparing _ lost hmem)

end Act

theorem not_lost_of_finishLoad {outcome : Except LoadFailure Entry} (sound : kernel.table.Sound)
    (hsafe : ¬ (kernel.finishLoad outcome).Faulted) :
    .discard lost ∉ (kernel.finishLoad outcome).effects := by
  unfold finishLoad at hsafe ⊢
  split
  · exact List.not_mem_nil
  next load loads hloads =>
  simp only [hloads] at hsafe ⊢
  intro hmem
  split at hsafe
  · next hsyscall =>
    rw [if_pos hsyscall] at hmem
    obtain ⟨result, last, hrun, heffects, -⟩ := run_of_safe hsafe
    rw [heffects] at hmem
    have hnone := lost_of_answerExec (by exact sound) hrun hmem
    cases hnone
  · next hsyscall =>
    rw [if_neg hsyscall] at hmem
    obtain ⟨result, last, hrun, heffects, -⟩ := run_of_safe hsafe
    rw [heffects] at hmem
    have hnone := lost_of_endLoad (by exact sound) hrun hmem
    cases hnone

theorem not_lost_of_terminate {pid : Pid} {status : ExitStatus} (sound : kernel.table.Sound)
    (hsafe : ¬ (kernel.perform (.terminate pid status)).Faulted) :
    .discard lost ∉ (kernel.perform (.terminate pid status)).effects := by
  intro hmem
  by_cases hrunning : kernel.table.IsRunning pid
  · obtain ⟨result, last, hrun, heffects, -⟩ := run_of_safe hsafe
    rw [perform, heffects] at hmem
    cases result with
    | ok value =>
      have hnone := saving_terminate pid status _ _ _ hrun lost hmem
      cases hnone
    | error cause => exact terminate_ne_refused (by exact sound) (by exact hrunning) hrun
  · cases hrecord : kernel.table.record? pid with
    | none =>
      simp [perform, act, terminate, Table.terminate, hrecord] at hmem
    | some record =>
      cases hphase : record.phase with
      | running => exact hrunning ⟨record, hrecord, hphase⟩
      | exited first =>
        obtain ⟨notice, hreply⟩ := @terminate_exited _ kernel _ _ status
          ((Table.phaseOf?_of_record? hrecord).trans (congrArg some hphase))
        exact hsafe ⟨_, by rw [hreply]⟩

theorem lost_of_pollSyscall {call : Syscall} {token : Nat} {memory : Memory} {progress : Progress}
    (sound : scene.table.Sound)
    (hdone : (pollSyscall call token waker memory).run scene = .done progress last)
    (hmem : .discard lost ∈ last.effects) :
    .discard lost ∈ scene.effects ∨ ∃ target, scene.table.Claims target token lost := by
  obtain ⟨started, middle, hstart, hrest⟩ := run_bind_eq_done hdone
  have hbefore (hmiddle : .discard lost ∈ middle.effects) : .discard lost ∈ scene.effects :=
    lost_of_start sound hstart hmiddle
  cases started with
  | returned | loading => exact .inl (hbefore ((sparing_pure _).saving _ _ _ hrest lost hmem))
  | joining target statusAddress =>
    have hsame : middle.table = scene.table := by
      obtain ⟨begun, after, audible, hyields, hjoining⟩ | hfaults := start_spec sound call memory
      · obtain ⟨added, -, hrun⟩ := hyields scene.effects
        rw [hstart] at hrun
        cases begun <;> cases hrun
        exact (hjoining target statusAddress rfl).1
      · obtain ⟨fault, left, hrun⟩ := hfaults scene.effects
        rw [hstart] at hrun
        cases hrun
    obtain hmiddle | hclaims := lost_of_pollCollecting hrest hmem
    · exact .inl (hbefore hmiddle)
    · exact .inr ⟨target, hsame ▸ hclaims⟩

theorem claims_of_lost_poll {request : RequestId} {memory : Memory} (sound : kernel.table.Sound)
    (tidy : kernel.Tidy) (hsafe : ¬ (kernel.poll request waker memory).Faulted)
    (hmem : .discard lost ∈ (kernel.poll request waker memory).effects) :
    ∃ target, kernel.table.Claims target request lost := by
  have htoken {entry : Request} {wait : Wait} (hrequest : kernel.requests[request]? = some entry)
      (hwait : entry.wait? = some wait) : wait.token = request :=
    tidy.token_eq (by rw [waitOf?, hrequest, Option.bind_some, hwait])
  have hnever {entry : Request} (hrequest : kernel.requests[request]? = some entry)
      (hsyscall : ∃ pid, entry.caller? = some pid) (cause : Errno) :
      (kernel.poll request waker memory).answer ≠ .refused cause := by
    obtain ⟨pid, hcaller⟩ := hsyscall
    have hserves : kernel.callerOf? request = some pid := by
      rw [callerOf?, hrequest, Option.bind_some, hcaller]
    intro hanswer
    cases served_poll sound hserves waker memory with
    | returned hother | parked _ _ _ _ hother | loading hother =>
      cases hanswer.symm.trans hother
    | faulted hfaulted => exact hsafe hfaulted
  cases hrequest : kernel.requests[request]? with
  | none =>
    simp only [poll, hrequest] at hmem
    cases hmem
  | some entry =>
    have hnot := hnever hrequest
    simp only [poll, hrequest] at hsafe hmem hnot
    cases entry with
    | join wait =>
      obtain ⟨result, last, hrun, heffects, -⟩ := run_of_safe hsafe
      rw [heffects] at hmem
      obtain ⟨joined, after, -, hyields⟩ := Wait.poll_spec sound wait waker
      obtain ⟨added, -, hdone⟩ := hyields []
      rw [hrun] at hdone
      cases result with
      | ok outcome =>
        obtain hnone | hclaims := lost_of_poll hrun hmem
        · cases hnone
        · exact ⟨wait.target, htoken hrequest rfl ▸ hclaims⟩
      | error cause => cases hdone
    | syscall call =>
      obtain ⟨result, last, hrun, heffects, hrefused⟩ := run_of_safe hsafe
      rw [heffects] at hmem
      cases result with
      | ok progress =>
        obtain hnone | hclaims := lost_of_pollSyscall (by exact sound) hrun hmem
        · cases hnone
        · exact hclaims
      | error cause => exact absurd (hrefused cause rfl) (hnot ⟨_, rfl⟩ cause)
    | collecting wait statusAddress =>
      obtain ⟨result, last, hrun, heffects, hrefused⟩ := run_of_safe hsafe
      rw [heffects] at hmem
      cases result with
      | ok progress =>
        obtain hnone | hclaims := lost_of_pollCollecting hrun hmem
        · cases hnone
        · exact ⟨wait.target, htoken hrequest rfl ▸ hclaims⟩
      | error cause => exact absurd (hrefused cause rfl) (hnot ⟨_, rfl⟩ cause)

theorem claims_of_lost_abandon {request : RequestId} (tidy : kernel.Tidy)
    (hmem : .discard lost ∈ (kernel.abandon request).effects) :
    ∃ target, kernel.table.Claims target request lost := by
  have hwait {wait : Wait} (hentry : kernel.waitOf? request = some wait)
      (hlost : .discard lost ∈ (wait.abandon.run ⟨kernel.table, []⟩).scene.effects) :
      ∃ target, kernel.table.Claims target request lost := by
    obtain hnone | hclaims := lost_of_abandon hlost
    · cases hnone
    · exact ⟨wait.target, tidy.token_eq hentry ▸ hclaims⟩
  cases hrequest : kernel.requests[request]? with
  | none =>
    simp only [abandon, hrequest] at hmem
    cases hmem
  | some entry =>
    simp only [abandon, hrequest] at hmem
    cases entry with
    | syscall call => cases hmem
    | join wait | collecting wait statusAddress =>
      simp only [effects_act] at hmem
      refine hwait ?_ hmem
      rw [waitOf?, hrequest, Option.bind_some]
      rfl

/-- A waker that is lost was left for the request that the call names. -/
theorem Run.claims_of_lost {call : Call Waker} (hrun : Run past kernel)
    (secluded : Secluded (past ++ [⟨kernel, call⟩]))
    (hmem : .discard lost ∈ (kernel.perform call).effects) :
    ∃ request target, call.request? = some request ∧ kernel.table.Claims target request lost := by
  by_cases hfaulted : (kernel.perform call).Faulted
  · obtain ⟨pid, status, first, rfl, hexited⟩ := hrun.call_of_faulted secluded hfaulted
    obtain ⟨notice, hreply⟩ := terminate_exited status hexited
    rw [hreply] at hmem
    cases List.mem_singleton.1 hmem
  · cases call with
    | spawn parent path arguments =>
      exact absurd hmem (not_lost_of_sparing (sparing_beginLoad parent path arguments false))
    | finishLoad outcome => exact absurd hmem (not_lost_of_finishLoad hrun.sound hfaulted)
    | terminate pid status => exact absurd hmem (not_lost_of_terminate hrun.sound hfaulted)
    | shutdown => exact absurd hmem (not_lost_of_sparing sparing_shutdown)
    | openJoin | openSyscall => cases hmem
    | poll request used memory =>
      have hclaims := claims_of_lost_poll hrun.sound hrun.tidy hfaulted hmem
      exact ⟨request, hclaims.imp fun _ h ↦ ⟨rfl, h⟩⟩
    | abandon request =>
      exact ⟨request, (claims_of_lost_abandon hrun.tidy hmem).imp fun _ h ↦ ⟨rfl, h⟩⟩

end Kernel

end Lifecycle
