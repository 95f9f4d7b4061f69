import Lifecycle.Proofs.Session.Tasks

/-!
# Scripts in tame sessions

Between the steps of a script no task is being run. Every operation keeps the session tended,
whether it comes from outside or from an image that is being loaded.
-/

namespace Lifecycle.Session

variable {setup : Setup} {owners : RequestId → Option TaskId} {session : Session} {core : Core}
  {takeSteps : StepTaker} {request : RequestId} {handle : Handle} {call : Kernel.Call Waker}
  {α : Type}

/-! ## Handles -/

/-- A request that exists and belongs to no task. -/
def Spare (owners : RequestId → Option TaskId) (core : Core) (request : RequestId) : Prop :=
  owners request = none ∧ request < core.kernel.nextRequest

theorem Settled.withHandles {handles : List (String × Handle)}
    (settled : Settled setup owners none core)
    (hspare : ∀ named ∈ handles, Spare owners core named.2.request) :
    Settled setup owners none { core with handles } :=
  ⟨{ settled.1 with
      handled := fun hmem ↦ hspare _ hmem
      waiting := fun htask hidle ↦
        ⟨(settled.1.waiting htask hidle).holds, (settled.1.waiting htask hidle).stands⟩ },
    settled.2⟩

theorem Settled.spare_of_lookup {name : String} (settled : Settled setup owners none core)
    (hlookup : core.handles.lookup name = some handle) : Spare owners core handle.request := by
  obtain ⟨_, _, hmem, -⟩ := List.lookup_eq_some_iff.1 hlookup
  have hhandle : (name, handle) ∈ core.handles :=
    hmem ▸ List.mem_append_right _ List.mem_cons_self
  exact settled.1.handled hhandle

theorem Settled.leads_removeHandle (settled : Settled setup owners none session.core)
    (name : String) :
    Leads (removeHandle name) session fun _ after ↦
      after.kernel = session.core.kernel ∧ Settled setup owners none after :=
  ⟨rfl, settled.withHandles fun _ hmem ↦ settled.1.handled (List.mem_filter.1 hmem).1⟩

theorem Settled.leads_putHandle (settled : Settled setup owners none session.core)
    (hspare : Spare owners session.core handle.request) (name : String) :
    Leads (putHandle name handle) session fun _ ↦ Settled setup owners none := by
  refine (settled.leads_removeHandle name).bind fun _ middle ⟨hkernel, hmiddle⟩ ↦ ?_
  refine hmiddle.withHandles fun named hmem ↦ ?_
  obtain rfl | hold := List.mem_cons.1 hmem
  · exact ⟨hspare.1, by rw [hkernel]; exact hspare.2⟩
  · exact hmiddle.1.handled hold

theorem Spare.permitted {kernel : Kernel Waker} (howner : owners request = none)
    (hidle : kernel.loads = []) {waker : Waker} (hwaker : ∀ id, waker ≠ .task id)
    (memory : Memory) :
    Permitted setup owners none kernel (.poll request waker memory) := by
  refine ⟨.inl hidle, ?_, ?_, nofun⟩
  · rintro other ⟨⟩
    exact .inl howner
  · rintro other id _ ⟨⟩
    exact absurd rfl (hwaker id)

/-- A request that was just opened belongs to no task. -/
theorem Settled.leads_openSpare (settled : Settled setup owners none session.core)
    (hopens : (∃ caller target, call = .openJoin caller target) ∨
      ∃ syscall, call = .openSyscall syscall) :
    Leads (openRequest call) session fun request after ↦
      Spare owners after request ∧ Settled setup owners none after := by
  refine (settled.leads_openRequest hopens).mono ?_
  rintro request after ⟨-, hfree, hnext, -, -, hafter⟩
  exact ⟨⟨hfree, hnext ▸ Nat.lt_succ_self _⟩, hafter⟩

/-! ## Operations that change nothing that matters -/

theorem idle_handle? (name : String) : Idle (handle? name) := fun _ ↦ rfl

theorem idle_isFreeChild (caller target : Pid) : Idle (isFreeChild caller target) := by
  refine idle_get.bind fun session ↦ ?_
  split <;> exact idle_pure _

/-- To look at a session, or at a memory, and to write into a memory is idle. -/
theorem idle_apply {operation : Operation} (hpassive : operation.isPassive = true) :
    Idle (apply takeSteps operation) := by
  cases operation with
  | query pid => exact idle_get.bind fun _ ↦ idle_pure _
  | table => exact idle_get.bind fun _ ↦ idle_pure _
  | peek space address length =>
    refine (idle_spaceNamed? space).bind fun named ↦ ?_
    split
    · exact idle_pure _
    · exact (idle_memory _).bind fun _ ↦ idle_pure _
  | poke space address bytes =>
    refine (idle_spaceNamed? space).bind fun named ↦ ?_
    split
    · exact idle_pure _
    · exact (idle_memory _).bind fun _ ↦ (idle_setMemory _ _).bind fun _ ↦ idle_pure _
  | other => exact idle_pure _
  | spawn | terminate | shutdown | join | syscall | poll | drop | blockOn | run | churn =>
    cases hpassive

section Tame

variable (tame : setup.Tame) (quiet : Quiet takeSteps)

include tame quiet

theorem Settled.leads_pollHandle (settled : Settled setup owners none session.core)
    (hspare : Spare owners session.core handle.request) (name waker : String) :
    Leads (pollHandle takeSteps name waker handle) session fun _ ↦ Settled setup owners none := by
  refine (settled.leads_removeHandle name).bind fun _ first ⟨hkernel, hfirst⟩ ↦ ?_
  refine (hfirst.leads_pollRequest tame quiet _
    (Spare.permitted hspare.1 hfirst.2 (by exact nofun))).bind
      fun answer second ⟨_, hgrows, hsecond⟩ ↦ ?_
  have hput : Leads (putHandle name handle) second fun _ ↦ Settled setup owners none := by
    refine hsecond.leads_putHandle ⟨hspare.1, Nat.lt_of_lt_of_le ?_ hgrows⟩ name
    rw [hkernel]
    exact hspare.2
  split
  · exact hput.bind fun _ last hlast ↦ leads_pure hlast
  · exact hput.bind fun _ last hlast ↦ leads_pure hlast
  · exact hput.bind fun _ last hlast ↦ leads_pure hlast
  · exact leads_pure hsecond

/-! ## Operations -/

theorem Settled.leads_spawnProcess (settled : Settled setup owners none session.core)
    (parent : Option Pid) (path : String) (arguments : List Bytes) :
    Leads (spawnProcess takeSteps parent path arguments) session fun _ ↦
      Settled setup owners none := by
  refine (idle_forM _ fun notice _ ↦ idle_log notice).bind_leads fun _ middle hmiddle ↦ ?_
  rw [← hmiddle] at settled
  split
  · exact leads_pure settled
  · exact (settled.leads_callLoading tame quiet rfl (permitted_of_nameless settled.2 rfl rfl)).bind
      fun answer last ⟨_, _, hlast⟩ ↦ leads_pure hlast

theorem Settled.leads_spawnSeveral (settled : Settled setup owners none session.core)
    (parent : Option Pid) (path : String) (arguments : List Bytes) (times : Nat)
    (results : List Result) :
    Leads (spawnSeveral takeSteps parent path arguments times results) session fun _ ↦
      Settled setup owners none := by
  induction times generalizing session results with
  | zero => exact leads_pure settled
  | succ times ih =>
    refine (settled.leads_spawnProcess tame quiet parent path arguments).bind
      fun result middle hmiddle ↦ ?_
    split
    · exact leads_pure hmiddle
    · exact ih hmiddle _

theorem Settled.leads_blockOnJoin (settled : Settled setup owners none session.core)
    (caller target : Pid) :
    Leads (blockOnJoin takeSteps caller target) session fun _ ↦ Settled setup owners none := by
  refine (settled.leads_openSpare (.inl ⟨caller, target, rfl⟩)).bind
    fun request first ⟨hspare, hfirst⟩ ↦ ?_
  refine (hfirst.leads_pollRequest tame quiet none
    (Spare.permitted hspare.1 hfirst.2 (by exact nofun))).bind
      fun answer second ⟨_, _, hsecond⟩ ↦ ?_
  exact (hsecond.leads_dropRequest hspare.1).bind fun _ last hlast ↦ leads_pure hlast

theorem Settled.leads_churnRounds (settled : Settled setup owners none session.core)
    (parent : Pid) (path : String) (toleratesFailure : Bool) (left round : Nat)
    (last : LastRound) :
    Leads (churnRounds takeSteps parent path toleratesFailure left round last) session fun _ ↦
      Settled setup owners none := by
  induction left generalizing session round last with
  | zero => exact leads_pure settled
  | succ left ih =>
    refine (settled.leads_callLoading tame quiet rfl
      (permitted_of_nameless settled.2 rfl rfl)).bind fun answer first ⟨_, _, hfirst⟩ ↦ ?_
    split
    · split
      · exact ih hfirst _ _
      · exact leads_pure hfirst
    · refine (hfirst.leads_call rfl rfl (permitted_of_nameless hfirst.2 rfl rfl)).bind
        fun answer second ⟨_, hsecond⟩ ↦ ?_
      split
      · exact leads_pure hsecond
      · exact leads_pure hsecond
      · refine (hsecond.leads_blockOnJoin tame quiet parent _).bind fun answer third hthird ↦ ?_
        split
        · exact ih hthird _ _
        · exact leads_pure hthird
        · exact leads_pure hthird
    · exact leads_pure hfirst

/-- A run of the queue is answered with how many turns there were. -/
theorem leads_run (resting : Resting setup session.core) :
    Leads (apply takeSteps .run) session fun result after ↦
      (∃ count, result = .ran count ∧ (count < setup.runLimit → after.queue.line = [])) ∧
        Resting setup after := by
  refine (leads_runTasks tame quiet resting).bind fun result last hresult ↦ ?_
  obtain ⟨total, rfl, hlast, hline⟩ := hresult
  exact leads_pure ⟨⟨total, rfl, hline⟩, hlast⟩

/-- Every operation keeps the session tended. -/
theorem leads_apply (resting : Resting setup session.core) (operation : Operation) :
    Leads (apply takeSteps operation) session fun _ ↦ Resting setup := by
  obtain ⟨owners, settled⟩ := resting
  have hkept {action : SessionM Result}
      (hleads : Leads action session fun _ ↦ Settled setup owners none) :
      Leads action session fun _ ↦ Resting setup := hleads.mono fun _ _ h ↦ ⟨owners, h⟩
  cases operation with
  | spawn parent path arguments times =>
    cases times with
    | none => exact hkept (settled.leads_spawnProcess tame quiet parent path arguments)
    | some times =>
      refine hkept (leads_quietly fun middle hmiddle ↦ ?_)
      exact Settled.leads_spawnSeveral tame quiet (hmiddle ▸ settled) parent path arguments times []
  | terminate pid status =>
    refine hkept ((settled.leads_call rfl rfl (permitted_of_nameless settled.2 rfl rfl)).bind ?_)
    exact fun answer last ⟨_, hlast⟩ ↦ leads_pure hlast
  | shutdown =>
    refine hkept ((settled.leads_call rfl rfl (permitted_of_nameless settled.2 rfl rfl)).bind ?_)
    exact fun answer last ⟨_, hlast⟩ ↦ leads_pure hlast
  | join name waker caller target isLazy =>
    refine hkept ((idle_handle? name).bind_leads fun found first hfirst ↦ ?_)
    rw [← hfirst] at settled
    split
    · exact leads_pure settled
    · refine (settled.leads_openSpare (.inl ⟨caller, target, rfl⟩)).bind
        fun request second ⟨hspare, hsecond⟩ ↦ ?_
      split
      · exact (hsecond.leads_putHandle hspare name).bind fun _ last hlast ↦ leads_pure hlast
      · exact hsecond.leads_pollHandle tame quiet hspare name waker
  | syscall name waker space call =>
    refine hkept ((idle_handle? name).bind_leads fun found first hfirst ↦ ?_)
    rw [← hfirst] at settled
    split
    · exact leads_pure settled
    · refine (idle_spaceNamed? space).bind_leads fun named second hsecond ↦ ?_
      rw [← hsecond] at settled
      split
      · exact leads_pure settled
      · exact (settled.leads_openSpare (.inr ⟨call, rfl⟩)).bind fun request third ⟨hspare, hthird⟩ ↦
          hthird.leads_pollHandle tame quiet hspare name waker
  | poll name waker =>
    refine hkept (leads_get_bind ?_)
    split
    · exact leads_pure settled
    · next handle hlookup =>
      exact settled.leads_pollHandle tame quiet (settled.spare_of_lookup hlookup) name waker
  | drop name =>
    refine hkept (leads_get_bind ?_)
    split
    · exact leads_pure settled
    · next handle hlookup =>
      have hspare := settled.spare_of_lookup hlookup
      refine (settled.leads_removeHandle name).bind fun _ first ⟨_, hfirst⟩ ↦ ?_
      exact (hfirst.leads_dropRequest hspare.1).bind fun _ last hlast ↦ leads_pure hlast
  | blockOn caller target =>
    refine hkept ((idle_isFreeChild caller target).bind_leads fun isFree first hfirst ↦ ?_)
    rw [← hfirst] at settled
    split
    · exact leads_pure settled
    · exact (settled.leads_blockOnJoin tame quiet caller target).bind fun _ last hlast ↦
        leads_pure hlast
  | run => exact (leads_run tame quiet ⟨owners, settled⟩).mono fun _ _ h ↦ h.2
  | query | table | peek | poke | other =>
    exact hkept ((idle_apply rfl).leads fun _ ↦ settled)
  | churn parent path rounds toleratesFailure =>
    refine hkept (leads_quietly fun middle hmiddle ↦ ?_)
    exact Settled.leads_churnRounds tame quiet (hmiddle ▸ settled) parent path toleratesFailure
      rounds 0 .none

end Tame

/-! ## Whole scripts -/

theorem idle_report {action : SessionM Result} (idle : Idle action) : Idle (report action) := by
  refine idle_get.bind fun session ↦ (idle_modify ?_).bind fun _ ↦ idle.bind fun result ↦ ?_
  · exact fun _ ↦ rfl
  refine idle_get.bind fun last ↦ (idle_modify ?_).bind fun _ ↦ ?_
  · exact fun _ ↦ rfl
  · exact idle_view.bind fun _ ↦ idle_pure _

/-- However deep loads are nested, those of a tame session take passive steps. -/
theorem quiet_takeStepsWithin (depth : Nat) : Quiet (takeStepsWithin depth) := by
  intro operations hpassive
  cases depth with
  | zero => exact idle_pure _
  | succ depth =>
    exact idle_mapM operations fun operation hmem ↦
      idle_report (idle_apply (hpassive operation hmem))

theorem idle_boot (memories : List (String × Memory)) : Idle (boot memories) := by
  refine (idle_log _).bind fun _ ↦ (idle_log _).bind fun _ ↦ idle_get.bind fun session ↦ ?_
  refine (idle_modify ?_).bind fun _ ↦ ?_
  · exact fun _ ↦ rfl
  refine (idle_forM memories fun named _ ↦ ?_).bind fun _ ↦ idle_pure _
  exact (idle_addSpace _).bind fun _ ↦ idle_nameSpace _ _

/-- A session in which nothing has happened is tended. -/
theorem resting_session (setup : Setup) : Resting setup setup.session.core := by
  refine ⟨fun _ ↦ none, ?_, rfl⟩
  constructor
  case images_eq => rfl
  case runLimit_eq => rfl
  case reached => exact ⟨[], .start, fun _ hmem ↦ absurd hmem List.not_mem_nil⟩
  case opened => rintro _ _ ⟨⟩
  case claimed =>
    intro target claim id hclaim _
    simp [core, Setup.session, Kernel.initial, Table.claimOf?] at hclaim
  case handled => exact fun hmem ↦ absurd hmem List.not_mem_nil
  case trim => exact RunQueue.trim_empty
  case peopled => exact fun hstanding ↦ absurd (RunQueue.standing_empty _) hstanding
  case sturdy => exact fun htask ↦ by simp [core, Setup.session] at htask
  case waiting => exact fun htask ↦ by simp [core, Setup.session] at htask
  case running => rintro _ ⟨⟩
  case attended =>
    intro pid hrunning
    simp [core, Setup.session, Kernel.initial, Table.phaseOf?] at hrunning
  case lost => exact fun hmem ↦ absurd hmem List.not_mem_nil
  case admitted => exact fun hmem ↦ absurd hmem List.not_mem_nil

end Lifecycle.Session
