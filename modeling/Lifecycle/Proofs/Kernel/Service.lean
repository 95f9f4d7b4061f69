import Lifecycle.Proofs.Kernel.Wakeup

/-!
# Syscalls, poll by poll

A poll of a syscall is never refused. The syscall returns, or it waits for a child of its caller, or
an image is to be loaded, and then the load answers for it.
-/

namespace Lifecycle.Kernel

variable {Waker : Type} {kernel : Kernel Waker} {table : Table Waker} {scene last : Scene Waker}
  {request : RequestId} {pid : Pid} {load : Load} {call : Syscall} {memory : Memory}
  {waker : Waker}

/-- The process whose syscall a request is. -/
def Request.caller? : Request → Option Pid
  | .syscall call => some call.caller
  | .collecting wait _ => some wait.caller
  | .join _ => none

def callerOf? (kernel : Kernel Waker) (request : RequestId) : Option Pid :=
  (kernel.requests[request]?).bind Request.caller?

/-! ## Where loads begin -/

/-- Only EXEC begins a load. -/
theorem exec_of_start (hdone : (call.start memory).run scene = .done (.loading load) last) :
    ∃ first final : Scene Waker,
      (Syscall.exec call.caller memory call.firstWord (Word.lowCode call.secondWord)
        call.thirdWord).run first = .done load final := by
  unfold Syscall.start at hdone
  obtain ⟨table, _, -, hdone⟩ := Action.run_bind_eq_done hdone
  split at hdone
  · obtain ⟨_, _, -, hdone⟩ := Action.run_bind_eq_done hdone
    cases hdone
  split at hdone
  · obtain ⟨_, _, -, hdone⟩ := Action.run_bind_eq_done hdone
    obtain ⟨_, _, -, hdone⟩ := Action.run_bind_eq_done hdone
    cases hdone
  obtain ⟨_, _, -, hdone⟩ := Action.run_bind_eq_done hdone
  split at hdone
  · obtain ⟨_, _, -, hdone⟩ := Action.run_bind_eq_done hdone
    cases hdone
  · obtain ⟨result, _, -, hdone⟩ := Action.run_bind_eq_done hdone
    cases result <;> cases hdone
  · obtain ⟨result, middle, hexec, hdone⟩ := Action.run_bind_eq_done hdone
    cases result with
    | ok begun =>
      cases hdone
      rw [Syscall.words_zero, Syscall.words_one, Syscall.words_two] at hexec
      exact ⟨_, _, Action.run_attempt_eq_done hexec⟩
    | error cause =>
      obtain ⟨_, _, -, hdone⟩ := Action.run_bind_eq_done hdone
      cases hdone
  · split at hdone
    · cases hdone
    · obtain ⟨_, _, -, hdone⟩ := Action.run_bind_eq_done hdone
      cases hdone

theorem beginLoad_eq_done {parent : Option Pid} {path : String} {arguments : ArgumentVector}
    {bySyscall : Bool}
    (hdone : (beginLoad parent path arguments bySyscall).run scene = .done load last) :
    load.arguments = arguments ∧ load.bySyscall = bySyscall := by
  unfold beginLoad at hdone
  split at hdone
  · obtain ⟨_, _, hrefused, -⟩ := Action.run_bind_eq_done hdone
    cases hrefused
  · obtain ⟨pid, _, -, hdone⟩ := Action.run_bind_eq_done hdone
    cases hdone
    exact ⟨rfl, rfl⟩

theorem liftResult_eq_done {α : Type} {result : Except Errno α} {value : α}
    (hdone : (Syscall.liftResult result).run scene = .done value last) : result = .ok value := by
  cases result with
  | ok first =>
    cases hdone
    rfl
  | error cause => cases hdone

theorem exec_eq_done {caller : Pid} {name argv : Nat} {announced : Int32}
    (hdone : (Syscall.exec caller memory name announced argv).run scene = .done load last) :
    (ArgumentVector.ofMemory memory announced argv).value = .ok load.arguments ∧
      load.bySyscall = true := by
  unfold Syscall.exec at hdone
  split at hdone
  · obtain ⟨_, _, hrefused, -⟩ := Action.run_bind_eq_done hdone
    cases hrefused
  · obtain ⟨path, _, -, hdone⟩ := Action.run_bind_eq_done hdone
    obtain ⟨_, _, -, hdone⟩ := Action.run_bind_eq_done hdone
    obtain ⟨arguments, _, hlift, hdone⟩ := Action.run_bind_eq_done hdone
    obtain ⟨_, _, -, hdone⟩ := Action.run_bind_eq_done hdone
    obtain ⟨harguments, hbySyscall⟩ := beginLoad_eq_done hdone
    exact ⟨harguments ▸ liftResult_eq_done hlift, hbySyscall⟩

/-! ## First steps -/

/-- The first step of a syscall is never refused, and a JOIN does nothing in it. -/
theorem start_spec (sound : table.Sound) (call : Syscall) (memory : Memory) :
    (∃ started after audible, (call.start memory).Yields table (.ok started) after audible ∧
      ∀ target address, started = .joining target address → after = table ∧ audible = []) ∨
    (call.start memory).Faults table := by
  have hreturned {value : Int} {after : Table Waker} {audible : List (Effect Waker)}
      (hyields : (call.start memory).Yields table (.ok (.returned value)) after audible) :
      ∃ started after audible, (call.start memory).Yields table (.ok started) after audible ∧
        ∀ target address, started = .joining target address → after = table ∧ audible = [] :=
    ⟨_, _, _, hyields, nofun⟩
  by_cases hrunning : table.IsRunning call.caller
  · cases hkind : SyscallKind.ofNumber? call.number with
    | none =>
      obtain ⟨value, after, audible, -, hyields⟩ | ⟨-, hfaults⟩ :=
        start_unknown hrunning memory sound hkind
      · exact .inl (hreturned hyields)
      · exact .inr hfaults
    | some kind =>
      cases kind with
      | halt =>
        obtain ⟨audible, -, hyields⟩ := start_halt hrunning memory hkind
        exact .inl (hreturned hyields)
      | exit =>
        obtain ⟨value, after, audible, -, hyields⟩ | ⟨-, hfaults⟩ :=
          start_exit hrunning memory sound hkind
        · exact .inl (hreturned hyields)
        · exact .inr hfaults
      | exec =>
        obtain ⟨value, hyields⟩ | ⟨load, after, -, hyields⟩ :=
          start_exec hrunning memory sound hkind
        · exact .inl (hreturned hyields)
        · exact .inl ⟨_, _, _, hyields, nofun⟩
      | join => exact .inl ⟨_, _, _, start_join hrunning memory hkind, fun _ _ _ ↦ ⟨rfl, rfl⟩⟩
  · exact .inl (hreturned (start_stopped hrunning memory))

/-! ## Polls -/

/-- What a poll of a process's syscall comes to. -/
inductive Served (kernel : Kernel Waker) (request : RequestId) (pid : Pid) (waker : Waker)
    (reply : Reply Waker) : Prop where
  | returned {value : Int} {written : Option Memory}
      (hanswer : reply.answer = .returned value written)
      (hloads : reply.kernel.loads = kernel.loads)
  | parked {wait : Wait} (hwait : reply.kernel.waitOf? request = some wait)
      (hparked : Parked reply.kernel.table wait waker) (hcaller : wait.caller = pid)
      (hserves : reply.kernel.callerOf? request = some pid) (hanswer : reply.answer = .pending)
      (hloads : reply.kernel.loads = kernel.loads)
  | loading {load : Load} (hanswer : reply.answer = .loading load.path load.arguments)
      (hloads : reply.kernel.loads = load :: kernel.loads) (hsyscall : load.bySyscall = true)
  | faulted (hfaulted : reply.Faulted)

theorem callerOf?_keep (entry : Request) :
    (kernel.keep request entry).callerOf? request = entry.caller? := by
  rw [callerOf?, requests_keep, if_pos rfl, Option.bind_some]

theorem served_collecting {after : Table Waker} {wait : Wait} {statusAddress : Nat}
    {result : Except Errno (Option ExitStatus)} {progress : Progress}
    {action : Action Waker Progress} (sound : kernel.table.Sound)
    (hattempts : kernel.table.Attempts wait.caller wait.target wait.token waker result after)
    (hbrings : Brings wait statusAddress result progress)
    (hyields : action.Yields kernel.table (.ok progress) after []) :
    Served kernel request wait.caller waker
      (kernel.act action (settleSyscall request) (·.forget request)) := by
  obtain ⟨effects, -, hact⟩ := act_of_ok (settleSyscall request) (·.forget request) hyields
  rw [hact]
  cases hbrings with
  | waiting =>
    have hwait : (({ kernel with table := after } : Kernel Waker).keep request
        (.collecting (wait.after none) statusAddress)).waitOf? request = some (wait.after none) :=
      waitOf?_keep _
    exact .parked hwait (parked_of_attempts sound hattempts) rfl (callerOf?_keep _) rfl rfl
  | returned _ value written => exact .returned rfl rfl

theorem served_syscall (sound : kernel.table.Sound) (request : RequestId) (call : Syscall)
    (waker : Waker) (memory : Memory) :
    Served kernel request call.caller waker
      (kernel.act (pollSyscall call request waker memory) (settleSyscall request)
        (·.forget request)) := by
  obtain ⟨started, after, audible, hstart, hjoining⟩ | hfaults := start_spec sound call memory
  · cases started with
    | returned value =>
      have hpoll : (pollSyscall call request waker memory).Yields kernel.table
          (.ok (.returned value none)) after (audible ++ []) :=
        hstart.bind (Action.yields_pure _ _)
      obtain ⟨effects, -, hact⟩ := act_of_ok (settleSyscall request) (·.forget request) hpoll
      rw [hact]
      exact .returned rfl rfl
    | loading load =>
      obtain ⟨_, -, hrun⟩ := hstart []
      obtain ⟨_, _, hexec⟩ := exec_of_start hrun
      have hpoll : (pollSyscall call request waker memory).Yields kernel.table
          (.ok (.loading load)) after (audible ++ []) := hstart.bind (Action.yields_pure _ _)
      obtain ⟨effects, -, hact⟩ := act_of_ok (settleSyscall request) (·.forget request) hpoll
      rw [hact]
      exact .loading rfl rfl (exec_eq_done hexec).2
    | joining target statusAddress =>
      obtain ⟨rfl, rfl⟩ := hjoining target statusAddress rfl
      obtain ⟨result, after, hattempts, hpoll⟩ :=
        Wait.poll_spec sound ⟨call.caller, target, request, false⟩ waker
      obtain ⟨progress, hbrings, hcollecting⟩ := pollCollecting_yields hpoll statusAddress memory
      exact served_collecting sound hattempts hbrings (.bind_silent hstart hcollecting)
  · exact .faulted (faulted_of_faults hfaults.bind)

theorem served_poll (sound : kernel.table.Sound) (hserves : kernel.callerOf? request = some pid)
    (waker : Waker) (memory : Memory) :
    Served kernel request pid waker (kernel.perform (.poll request waker memory)) := by
  obtain ⟨entry, hrequest, hcaller⟩ := Option.bind_eq_some_iff.1 hserves
  simp only [perform, poll, hrequest]
  cases entry with
  | join wait => cases hcaller
  | syscall call =>
    cases hcaller
    exact served_syscall sound request call waker memory
  | collecting wait statusAddress =>
    cases hcaller
    obtain ⟨result, after, hattempts, hpoll⟩ := Wait.poll_spec sound wait waker
    obtain ⟨progress, hbrings, hyields⟩ := pollCollecting_yields hpoll statusAddress memory
    exact served_collecting sound hattempts hbrings hyields

end Lifecycle.Kernel
