import Lifecycle.Proofs.Kernel.Seclusion
import Lifecycle.Proofs.Kernel.Slots
import Lifecycle.Proofs.Kernel.Wakeup

/-!
# What a call leaves behind

Those outside the kernel see its effects and know which requests are theirs. As long as loaders make
no calls, that is enough to keep track of the slots, of the parked joiners and of the processes that
run, whether a call stops on a fault or not.
-/

namespace Lifecycle.Kernel

variable {Waker : Type} {past : List (Step Waker)} {kernel : Kernel Waker} {call : Call Waker}
  {pid target : Pid} {load : Load} {request : RequestId} {waker : Waker}

theorem Step.mem_woken {step : Step Waker} :
    waker ∈ step.woken ↔ ∃ size, .wake waker size ∈ step.reply.effects := by
  rw [Step.woken, List.mem_filterMap]
  constructor
  · rintro ⟨effect, hmem, hwaker⟩
    cases effect with
    | wake other size =>
      cases hwaker
      exact ⟨size, hmem⟩
    | note | discard | admitted | halt | stop => cases hwaker
  · rintro ⟨size, hmem⟩
    exact ⟨_, hmem, rfl⟩

theorem Reply.mem_audible {reply : Reply Waker} {effect : Effect Waker}
    (haudible : effect.isAudible = true) : effect ∈ reply.audible ↔ effect ∈ reply.effects := by
  rw [Reply.audible, List.mem_filter, and_iff_left haudible]

/-! ## What changes show -/

section Change

variable {after : Table Waker} {loads : List Load} {audible : List (Effect Waker)}
  {answer : Answer}

theorem Change.absent_of_failed {cause : LoadFailure}
    (change : kernel.Change (.settle load (.error cause)) after loads audible answer) :
    after.phaseOf? load.pid = none := by
  cases change with
  | unchanged hvoid => cases hvoid
  | gone _ habsent => exact habsent
  | withdrawn _ hremoved => rw [hremoved.phaseOf?_eq, if_pos rfl]

/-- A demand to end a process leaves it ended or gone. -/
theorem Change.not_running {status : ExitStatus} (sound : kernel.table.Sound)
    (change : kernel.Change (.finish pid status) after loads audible answer) :
    after.phaseOf? pid ≠ some .running := by
  cases change with
  | unchanged hvoid =>
    cases hvoid with
    | finish _ habsent => simp [habsent]
  | ended hends =>
    cases hends with
    | left hended _ =>
      rw [hended.phaseOf?_eq sound, if_pos rfl]
      split <;> simp
    | last _ _ => simp [Table.phaseOf?]

theorem Change.same_of_nothing (change : kernel.Change .nothing after loads audible answer) :
    after = kernel.table ∧ loads = kernel.loads := by
  cases change with
  | unchanged => exact ⟨rfl, rfl⟩

theorem Change.loads_of_finish {status : ExitStatus}
    (change : kernel.Change (.finish pid status) after loads audible answer) :
    loads = kernel.loads := by
  cases change with
  | unchanged | ended => rfl

end Change

/-! ## Loads -/

theorem ofFailure_ne_loading (failure : Failure) (path : String) (arguments : ArgumentVector) :
    Answer.ofFailure failure ≠ .loading path arguments := by
  cases failure <;> simp [Answer.ofFailure]

/-- Unless it ends a load, a call that is answered with one begins it, and no other does. -/
theorem loads_perform (kernel : Kernel Waker) (hends : call.endsLoad = false) :
    ((kernel.perform call).kernel.loads = kernel.loads ∧
      ∀ path arguments, (kernel.perform call).answer ≠ .loading path arguments) ∨
    ∃ load : Load, (kernel.perform call).kernel.loads = load :: kernel.loads ∧
      (kernel.perform call).answer = .loading load.path load.arguments := by
  let fits (reply : Reply Waker) : Prop :=
    (reply.kernel.loads = kernel.loads ∧ ∀ path arguments, reply.answer ≠ .loading path arguments) ∨
      ∃ load : Load, reply.kernel.loads = load :: kernel.loads ∧
        reply.answer = .loading load.path load.arguments
  have hfailure (after : Kernel Waker) (effects : List (Effect Waker)) (failure : Failure)
      (hloads : after.loads = kernel.loads) : fits ⟨after, effects, .ofFailure failure⟩ :=
    .inl ⟨hloads, ofFailure_ne_loading failure⟩
  have hprogress (request : RequestId) (table : Table Waker) (effects : List (Effect Waker))
      (progress : Progress) :
      fits ⟨(settleSyscall request { kernel with table } progress).1, effects,
        (settleSyscall request { kernel with table } progress).2⟩ := by
    cases progress with
    | waiting | returned => exact .inl ⟨rfl, by simp [settleSyscall]⟩
    | loading load => exact .inr ⟨load, rfl, rfl⟩
  change fits (kernel.perform call)
  cases call with
  | spawn parent path arguments =>
    exact act_induction fits (fun _ _ load ↦ .inr ⟨load, rfl, rfl⟩) fun _ _ _ ↦ hfailure _ _ _ rfl
  | finishLoad outcome => cases hends
  | terminate | shutdown =>
    exact act_induction fits (fun _ _ _ ↦ .inl ⟨rfl, by simp⟩) fun _ _ _ ↦ hfailure _ _ _ rfl
  | openJoin | openSyscall => exact .inl ⟨rfl, by simp [perform, openRequest]⟩
  | poll request waker memory =>
    rw [perform, poll]
    split
    · exact .inl ⟨rfl, by simp⟩
    · refine act_induction fits (fun _ _ outcome ↦ .inl ⟨rfl, ?_⟩) fun _ _ _ ↦ hfailure _ _ _ rfl
      rcases outcome with _ | _ | _ <;> simp [settleJoin]
    · exact act_induction fits (hprogress request) fun _ _ _ ↦ hfailure _ _ _ rfl
    · exact act_induction fits (hprogress request) fun _ _ _ ↦ hfailure _ _ _ rfl
  | abandon request =>
    rw [perform, abandon]
    split
    · exact .inl ⟨rfl, by simp⟩
    · exact .inl ⟨rfl, by simp⟩
    · exact act_induction fits (fun _ _ _ ↦ .inl ⟨rfl, by simp⟩) fun _ _ _ ↦ hfailure _ _ _ rfl
    · exact act_induction fits (fun _ _ _ ↦ .inl ⟨rfl, by simp⟩) fun _ _ _ ↦ hfailure _ _ _ rfl

/-- Whether a call may be answered with a load. -/
def Call.mayLoad : Call Waker → Bool
  | .spawn .. | .poll .. => true
  | .finishLoad _ | .terminate .. | .shutdown | .openJoin .. | .openSyscall _ | .abandon _ => false

/-- To end a process, to tear down and to drop a request load nothing. -/
theorem ne_loading (kernel : Kernel Waker) (hcall : call.mayLoad = false) (path : String)
    (arguments : ArgumentVector) : (kernel.perform call).answer ≠ .loading path arguments := by
  have hact {α : Type} (acting : Kernel Waker) (action : Action Waker α) (answer : α → Answer)
      (change : Kernel Waker → Kernel Waker) (unsettle : Kernel Waker → Kernel Waker)
      (hanswer : ∀ value, answer value ≠ .loading path arguments) :
      (acting.act action (fun kernel value ↦ (change kernel, answer value)) unsettle).answer ≠
        .loading path arguments :=
    act_induction (·.answer ≠ .loading path arguments) (fun _ _ value ↦ hanswer value)
      fun _ _ failure ↦ ofFailure_ne_loading failure path arguments
  cases call with
  | spawn | poll => cases hcall
  | finishLoad outcome =>
    rw [perform, finishLoad]
    split
    · simp
    · split
      · exact hact _ _ (fun value ↦ .returned value none) id id (by simp)
      · exact hact _ _ (fun pid ↦ .spawned pid) id id (by simp)
  | terminate pid status => exact hact _ _ (fun _ ↦ .done) id id (by simp)
  | shutdown => exact hact _ _ (fun _ ↦ .done) id id (by simp)
  | openJoin | openSyscall => simp [perform, openRequest]
  | abandon request =>
    rw [perform, abandon]
    split
    · simp
    · simp
    · exact hact _ _ (fun _ ↦ .done) (·.forget request) _ (by simp)
    · exact hact _ _ (fun _ ↦ .done) (·.forget request) _ (by simp)

section Next

variable (hrun : Run past kernel) (secluded : Secluded (past ++ [⟨kernel, call⟩]))

include hrun secluded

/-- A call that stops on a fault is only read about. -/
theorem Run.change_or_faulted :
    kernel.Change (kernel.demand call) (kernel.perform call).kernel.table
      (kernel.perform call).kernel.loads (kernel.perform call).audible
      (kernel.perform call).answer ∨
    ∃ pid status notice, call = .terminate pid status ∧
      kernel.perform call = ⟨kernel, [.note notice], .faulted (.terminatedTwice pid)⟩ := by
  by_cases hfaulted : (kernel.perform call).Faulted
  · obtain ⟨pid, status, first, rfl, hexited⟩ := hrun.call_of_faulted secluded hfaulted
    exact .inr ⟨pid, status, (terminate_exited status hexited).imp fun _ hreply ↦ ⟨rfl, hreply⟩⟩
  · exact .inl (change_of_safe hrun.sound hfaulted)

/-- A waker is in a slot because it was there before or because it was just polled with. -/
theorem Run.claim_left {claim : Claim Waker}
    (hclaim : (kernel.perform call).kernel.table.claimOf? target = some claim)
    (hwaker : claim.waker = some waker) :
    kernel.table.claimOf? target = some claim ∨
      ∃ memory, call = .poll claim.token waker memory := by
  obtain change | ⟨_, _, _, -, hreply⟩ := hrun.change_or_faulted secluded
  · cases change.claim_origin hrun.sound hclaim with
    | kept hbefore => exact .inl hbefore
    | woken _ _ hsame =>
      rw [hsame] at hwaker
      cases hwaker
    | parked hdemand _ _ hsame =>
      subst hsame
      cases hwaker
      obtain ⟨request, memory, rfl⟩ := call_of_join hdemand
      rw [hrun.tidy.token_of_poll hdemand]
      exact .inr ⟨memory, rfl⟩
  · rw [hreply] at hclaim
    exact .inl hclaim

theorem Run.parked_left {wait : Wait} (hparked : Parked kernel.table wait waker)
    (huntouched : call.request? ≠ some wait.token) :
    Parked (kernel.perform call).kernel.table wait waker ∨
      ∃ size, .wake waker size ∈ (kernel.perform call).effects := by
  obtain change | ⟨_, _, _, -, hreply⟩ := hrun.change_or_faulted secluded
  · exact (parked_or_woken_of_untouched ⟨kernel, call⟩ hrun.sound hrun.tidy change hparked
      huntouched).imp_right Step.mem_woken.1
  · rw [hreply]
    exact .inl hparked

/-- Only those that are being loaded begin to run. -/
theorem Run.running_left
    (hrunning : (kernel.perform call).kernel.table.phaseOf? pid = some .running) :
    kernel.table.phaseOf? pid = some .running ∨
      ∃ load, (kernel.perform call).kernel.loads = load :: kernel.loads ∧ load.pid = pid := by
  obtain change | ⟨_, _, _, -, hreply⟩ := hrun.change_or_faulted secluded
  · obtain ⟨load, name, -, hloads, hinserted⟩ | hshrinks := change.inserted_or_shrinks hrun.sound
    · rw [hinserted.phaseOf?_eq] at hrunning
      split at hrunning
      · next hself => exact .inr ⟨load, hloads, hself.symm⟩
      · exact .inl hrunning
    · obtain ⟨birth, hbirth⟩ := Table.exists_birthOf? hrunning
      exact .inl (change.running_of_old hrun.sound
        (hrun.sound.birth_lt (hshrinks.birthOf?_of hbirth)) hbirth hrunning)
  · rw [hreply] at hrunning
    exact .inl hrunning

/-- A process is admitted when its load ends well. -/
theorem Run.admitted_left {path : String} {entry : Entry} {size : Nat}
    (hmem : .admitted pid path entry size ∈ (kernel.perform call).effects) :
    call = .finishLoad (.ok entry) ∧
      ∃ load rest, kernel.loads = load :: rest ∧ load.pid = pid ∧ load.path = path := by
  obtain change | ⟨_, _, _, -, hreply⟩ := hrun.change_or_faulted secluded
  · obtain ⟨load, hdemand, hpid, hpath⟩ := change.of_admitted ((Reply.mem_audible rfl).2 hmem)
    obtain ⟨hcall, rest, hloads⟩ := call_of_settle hdemand
    exact ⟨hcall, load, rest, hloads, hpid, hpath⟩
  · rw [hreply] at hmem
    cases List.mem_singleton.1 hmem

end Next

/-! ## Ends of loads and of processes -/

section Ends

variable (hrun : Run past kernel) (secluded : Secluded past)

include hrun secluded

/-- A load that ends leaves nothing to do. Its process is admitted, or it does not run any more. -/
theorem Run.finishLoad_left (hloads : kernel.loads = [load])
    (outcome : Except LoadFailure Entry) :
    (kernel.perform (.finishLoad outcome)).kernel.loads = [] ∧
      (kernel.perform (.finishLoad outcome)).answer = load.answer outcome ∧
      ((∃ entry size, .admitted load.pid load.path entry size ∈
          (kernel.perform (.finishLoad outcome)).effects) ∨
        (kernel.perform (.finishLoad outcome)).kernel.table.phaseOf? load.pid = none) := by
  have hsafe : ¬ (kernel.perform (.finishLoad outcome)).Faulted := by
    intro hfaulted
    obtain ⟨_, _, _, hcall, -⟩ := hrun.call_of_faulted (secluded.concat (.inr rfl)) hfaulted
    cases hcall
  have hdemand : kernel.demand (.finishLoad outcome) = .settle load outcome := by
    simp only [demand, hloads]
  have change := change_of_safe hrun.sound hsafe
  rw [hdemand] at change
  have hrest := hloads.symm.trans change.loads_of_settle
  refine ⟨(List.cons.inj hrest).2.symm, answer_finishLoad hrun.sound hloads hsafe, ?_⟩
  cases outcome with
  | ok entry =>
    refine .inl ⟨entry, kernel.table.size, (Reply.mem_audible rfl).1 ?_⟩
    rw [change.audible_of_admitted]
    exact List.mem_singleton_self _
  | error cause => exact .inr change.absent_of_failed

theorem Run.poll_safe (hidle : kernel.loads = []) (request : RequestId) (waker : Waker)
    (memory : Memory) : ¬ (kernel.perform (.poll request waker memory)).Faulted := by
  intro hfaulted
  obtain ⟨_, _, _, hcall, -⟩ := hrun.call_of_faulted (secluded.concat (.inl hidle)) hfaulted
  cases hcall

/-- Whoever makes an EXIT does not run afterwards, and nothing is loaded for it. -/
theorem Run.exit_left {exiting : Syscall} (hidle : kernel.loads = [])
    (hrequest : kernel.requests[request]? = some (.syscall exiting))
    (hkind : SyscallKind.ofNumber? exiting.number = some .exit) (waker : Waker) (memory : Memory) :
    (kernel.perform (.poll request waker memory)).kernel.loads = [] ∧
      (kernel.perform (.poll request waker memory)).kernel.table.phaseOf? exiting.caller ≠
        some .running := by
  have change := change_of_safe hrun.sound (hrun.poll_safe secluded hidle request waker memory)
  simp only [demand, hrequest, Syscall.demand, hkind] at change
  split at change
  · next hstopped =>
    obtain ⟨htable, hloads⟩ := change.same_of_nothing
    rw [htable, hloads, ne_eq, ← Table.isRunning_iff_phaseOf?]
    exact ⟨hidle, hstopped⟩
  · exact ⟨change.loads_of_finish.trans hidle, change.not_running hrun.sound⟩

end Ends

end Lifecycle.Kernel
