import Lifecycle.Proofs.Kernel.Run

/-!
# Requests

What calls do to the requests under way. A call touches the request it names and no other; the
token of a wait is the id of its request, so no two waits have the same.
-/

namespace Lifecycle.Kernel

variable {Waker : Type} {kernel acting : Kernel Waker} {request other : RequestId}

/-- The request that a call polls or drops. -/
def Call.request? : Call Waker → Option RequestId
  | .poll request _ _ | .abandon request => some request
  | _ => none

def Request.wait? : Request → Option Wait
  | .join wait | .collecting wait _ => some wait
  | .syscall _ => none

def waitOf? (kernel : Kernel Waker) (request : RequestId) : Option Wait :=
  (kernel.requests[request]?).bind Request.wait?

/-- What holds of a reply however the action on the table comes out. -/
theorem act_induction {α : Type} {action : Action Waker α}
    {settle : Kernel Waker → α → Kernel Waker × Answer} {unsettle : Kernel Waker → Kernel Waker}
    (motive : Reply Waker → Prop)
    (hsettle : ∀ table effects value, motive
      ⟨(settle { acting with table } value).1, effects, (settle { acting with table } value).2⟩)
    (hunsettle : ∀ table effects failure,
      motive ⟨unsettle { acting with table }, effects, .ofFailure failure⟩) :
    motive (acting.act action settle unsettle) := by
  unfold act
  split
  · exact hsettle _ _ _
  · exact hunsettle _ _ _

theorem requests_keep (entry : Request) (other : RequestId) :
    (kernel.keep request entry).requests[other]? =
      if request = other then some entry else kernel.requests[other]? := by
  simp [keep, Std.ExtTreeMap.getElem?_insert]

theorem requests_forget (kernel : Kernel Waker) (request other : RequestId) :
    (kernel.forget request).requests[other]? =
      if request = other then none else kernel.requests[other]? := by
  simp [forget, Std.ExtTreeMap.getElem?_erase]

/-- How far the requests of a kernel are those of another: all but one are the same, and the next
id is. -/
def SameBut (before after : Kernel Waker) (request : RequestId) : Prop :=
  after.nextRequest = before.nextRequest ∧
    ∀ other, other ≠ request → after.requests[other]? = before.requests[other]?

theorem sameBut_keep (kernel : Kernel Waker) (table : Table Waker) (request : RequestId)
    (entry : Request) : SameBut kernel ({ kernel with table }.keep request entry) request :=
  ⟨rfl, fun other hne ↦ by rw [requests_keep, if_neg hne.symm]⟩

theorem sameBut_forget (kernel : Kernel Waker) (table : Table Waker) (request : RequestId) :
    SameBut kernel ({ kernel with table }.forget request) request :=
  ⟨rfl, fun other hne ↦ by rw [requests_forget, if_neg hne.symm]⟩

theorem sameBut_settleSyscall (kernel : Kernel Waker) (table : Table Waker) (request : RequestId)
    (progress : Progress) :
    SameBut kernel (settleSyscall request { kernel with table } progress).1 request := by
  cases progress with
  | waiting wait statusAddress => exact sameBut_keep kernel table request _
  | returned value written => exact sameBut_forget kernel table request
  | loading load => exact sameBut_forget kernel table request

theorem sameBut_poll (kernel : Kernel Waker) (request : RequestId) (waker : Waker)
    (memory : Memory) : SameBut kernel (kernel.poll request waker memory).kernel request := by
  unfold poll
  split
  · exact ⟨rfl, fun _ _ ↦ rfl⟩
  · exact act_induction (SameBut kernel ·.kernel request)
      (fun table _ outcome ↦ sameBut_keep kernel table request _)
      fun table _ _ ↦ sameBut_forget kernel table request
  · exact act_induction (SameBut kernel ·.kernel request)
      (fun table _ progress ↦ sameBut_settleSyscall kernel table request progress)
      fun table _ _ ↦ sameBut_forget kernel table request
  · exact act_induction (SameBut kernel ·.kernel request)
      (fun table _ progress ↦ sameBut_settleSyscall kernel table request progress)
      fun table _ _ ↦ sameBut_forget kernel table request

theorem sameBut_abandon (kernel : Kernel Waker) (request : RequestId) :
    SameBut kernel (kernel.abandon request).kernel request := by
  unfold abandon
  split
  · exact ⟨rfl, fun _ _ ↦ rfl⟩
  · exact sameBut_forget kernel kernel.table request
  · exact act_induction (SameBut kernel ·.kernel request)
      (fun table _ _ ↦ sameBut_forget kernel table request)
      fun table _ _ ↦ sameBut_forget kernel table request
  · exact act_induction (SameBut kernel ·.kernel request)
      (fun table _ _ ↦ sameBut_forget kernel table request)
      fun table _ _ ↦ sameBut_forget kernel table request

/-- A call that names no request opens one, or it leaves them all alone. -/
theorem requests_of_none (kernel : Kernel Waker) {call : Call Waker}
    (hnone : call.request? = none) :
    (∃ entry, (kernel.perform call).kernel.requests =
        kernel.requests.insert kernel.nextRequest entry ∧
      (∀ wait, entry.wait? = some wait → wait.token = kernel.nextRequest) ∧
      (kernel.perform call).kernel.nextRequest = kernel.nextRequest + 1) ∨
    (kernel.perform call).kernel.requests = kernel.requests ∧
      (kernel.perform call).kernel.nextRequest = kernel.nextRequest := by
  let same (after : Kernel Waker) : Prop :=
    after.requests = kernel.requests ∧ after.nextRequest = kernel.nextRequest
  cases call with
  | spawn parent path arguments =>
    exact .inr (act_induction (same ·.kernel) (fun _ _ _ ↦ ⟨rfl, rfl⟩) fun _ _ _ ↦ ⟨rfl, rfl⟩)
  | finishLoad outcome =>
    right
    change same (kernel.finishLoad outcome).kernel
    unfold finishLoad
    split
    · exact ⟨rfl, rfl⟩
    · split
      · exact act_induction (same ·.kernel) (fun _ _ _ ↦ ⟨rfl, rfl⟩) fun _ _ _ ↦ ⟨rfl, rfl⟩
      · exact act_induction (same ·.kernel) (fun _ _ _ ↦ ⟨rfl, rfl⟩) fun _ _ _ ↦ ⟨rfl, rfl⟩
  | terminate pid status =>
    exact .inr (act_induction (same ·.kernel) (fun _ _ _ ↦ ⟨rfl, rfl⟩) fun _ _ _ ↦ ⟨rfl, rfl⟩)
  | shutdown =>
    exact .inr (act_induction (same ·.kernel) (fun _ _ _ ↦ ⟨rfl, rfl⟩) fun _ _ _ ↦ ⟨rfl, rfl⟩)
  | openJoin caller target =>
    refine .inl ⟨.join ⟨caller, target, kernel.nextRequest, false⟩, rfl, ?_, rfl⟩
    rintro wait ⟨⟩
    rfl
  | openSyscall call => exact .inl ⟨.syscall call, rfl, nofun, rfl⟩
  | poll request waker memory => cases hnone
  | abandon request => cases hnone

/-! ## Tokens -/

/-- Requests have ids that were given out, and a wait has the id of its request for a token. -/
structure Tidy (kernel : Kernel Waker) : Prop where
  opened {request : RequestId} {entry : Request}
    (hrequest : kernel.requests[request]? = some entry) : request < kernel.nextRequest
  token_eq {request : RequestId} {wait : Wait} (hwait : kernel.waitOf? request = some wait) :
    wait.token = request

theorem Syscall.demand_join {call : Syscall} {table : Table Waker} {token : Nat}
    {waker used : Waker} {wait : Wait} (hdemand : call.demand table token waker = .join wait used) :
    table.IsRunning call.caller ∧ SyscallKind.ofNumber? call.number = some .join ∧
      ∃ target, Pid.ofUser? (Word.lowCode call.firstWord) = some target ∧
        wait = ⟨call.caller, target, token, false⟩ ∧ used = waker := by
  unfold Syscall.demand at hdemand
  split at hdemand
  · cases hdemand
  next hrunning =>
  split at hdemand
  case h_5 hkind =>
    split at hdemand
    · next target htarget =>
      cases hdemand
      exact ⟨not_not.1 hrunning, hkind, target, htarget, rfl, rfl⟩
    · cases hdemand
  all_goals cases hdemand

theorem demand_poll_ne_leave (kernel : Kernel Waker) (request : RequestId) (waker : Waker)
    (memory : Memory) (wait : Wait) : kernel.demand (.poll request waker memory) ≠ .leave wait := by
  cases hrequest : kernel.requests[request]? with
  | none => simp [demand, hrequest]
  | some entry =>
    cases entry with
    | join | collecting => simp [demand, hrequest]
    | syscall call =>
      simp only [demand, hrequest, Syscall.demand]
      grind

theorem Tidy.token_of_poll (tidy : kernel.Tidy) {waker used : Waker} {memory : Memory} {wait : Wait}
    (hdemand : kernel.demand (.poll request waker memory) = .join wait used) :
    wait.token = request := by
  cases hrequest : kernel.requests[request]? with
  | none =>
    simp only [demand, hrequest] at hdemand
    cases hdemand
  | some entry =>
    simp only [demand, hrequest] at hdemand
    cases entry with
    | join other =>
      cases hdemand
      exact tidy.token_eq (by rw [waitOf?, hrequest]; rfl)
    | collecting other statusAddress =>
      cases hdemand
      exact tidy.token_eq (by rw [waitOf?, hrequest]; rfl)
    | syscall call =>
      obtain ⟨-, -, target, -, rfl, -⟩ := Syscall.demand_join hdemand
      rfl

/-- Only a poll makes a demand to join, with the waker it is given. -/
theorem call_of_join {call : Call Waker} {wait : Wait} {used : Waker}
    (hdemand : kernel.demand call = .join wait used) :
    ∃ request memory, call = .poll request used memory := by
  cases call with
  | poll request waker memory =>
    have hused : used = waker := by
      cases hrequest : kernel.requests[request]? with
      | none =>
        simp only [demand, hrequest] at hdemand
        cases hdemand
      | some entry =>
        simp only [demand, hrequest] at hdemand
        cases entry with
        | join | collecting =>
          cases hdemand
          rfl
        | syscall call =>
          obtain ⟨-, -, target, -, -, hused⟩ := Syscall.demand_join hdemand
          exact hused
    exact ⟨request, memory, by rw [hused]⟩
  | abandon request =>
    cases hrequest : kernel.requests[request]? with
    | none => simp [demand, hrequest] at hdemand
    | some entry => cases entry <;> simp [demand, hrequest] at hdemand
  | finishLoad outcome => cases hloads : kernel.loads <;> simp [demand, hloads] at hdemand
  | spawn | terminate | shutdown | openJoin | openSyscall => simp [demand] at hdemand

/-- Only a drop makes a demand to give up a wait. -/
theorem Tidy.token_of_leave (tidy : kernel.Tidy) {call : Call Waker} {wait : Wait}
    (hdemand : kernel.demand call = .leave wait) : call.request? = some wait.token := by
  cases call with
  | poll request waker memory =>
    exact absurd hdemand (demand_poll_ne_leave kernel request waker memory wait)
  | abandon request =>
    cases hrequest : kernel.requests[request]? with
    | none => simp [demand, hrequest] at hdemand
    | some entry =>
      cases entry with
      | syscall call => simp [demand, hrequest] at hdemand
      | join other | collecting other statusAddress =>
        have hleave : other = wait := by simpa [demand, hrequest] using hdemand
        subst hleave
        refine congrArg some (tidy.token_eq ?_).symm
        rw [waitOf?, hrequest]
        rfl
  | finishLoad outcome => cases hloads : kernel.loads <;> simp [demand, hloads] at hdemand
  | spawn | terminate | shutdown | openJoin | openSyscall => simp [demand] at hdemand

theorem Answer.Shows.pending_iff {outcome : Option (Except Errno ExitStatus)} {answer : Answer}
    (shows : Answer.Shows outcome answer) : answer = .pending ↔ outcome = none := by
  cases shows <;> simp

theorem shows_settleJoin (request : RequestId) (wait : Wait) (kernel : Kernel Waker)
    (outcome : Option (Except Errno ExitStatus)) :
    Answer.Shows outcome (settleJoin request wait kernel outcome).2 := by
  match outcome with
  | none => exact .parked
  | some (.ok status) => exact .collected status
  | some (.error cause) => exact .refused cause

/-- What a poll leaves of its request: nothing, or the wait that it polled. -/
inductive Leaves (request : RequestId) (demand : Demand Waker) (waker : Waker)
    (reply : Reply Waker) : Prop where
  | nothing (hgone : reply.kernel.waitOf? request = none) (hanswer : reply.answer ≠ .pending)
  | wait {wait : Wait} {outcome : Option (Except Errno ExitStatus)}
      (hdemand : demand = .join wait waker)
      (hwait : reply.kernel.waitOf? request = some (wait.after outcome))
      (hshows : Answer.Shows outcome reply.answer)

theorem waitOf?_keep (entry : Request) :
    (acting.keep request entry).waitOf? request = entry.wait? := by
  rw [waitOf?, requests_keep, if_pos rfl, Option.bind_some]

theorem waitOf?_forget (acting : Kernel Waker) (request : RequestId) :
    (acting.forget request).waitOf? request = none := by
  rw [waitOf?, requests_forget, if_pos rfl, Option.bind_none]

theorem ofFailure_ne_pending (failure : Failure) : Answer.ofFailure failure ≠ .pending := by
  cases failure <;> nofun

theorem leaves_join (acting : Kernel Waker) (request : RequestId) (wait : Wait) (waker : Waker) :
    Leaves request (.join wait waker) waker
      (acting.act (wait.poll waker) (settleJoin request wait) (·.forget request)) :=
  act_induction _
    (fun table _ outcome ↦ .wait rfl (waitOf?_keep _)
      (shows_settleJoin request wait { acting with table } outcome))
    fun _ _ failure ↦ .nothing (waitOf?_forget _ _) (ofFailure_ne_pending failure)

theorem leaves_collecting {after : Table Waker} {wait : Wait} {statusAddress : Nat} {waker : Waker}
    {result : Except Errno (Option ExitStatus)} {progress : Progress}
    {action : Action Waker Progress} (hbrings : Brings wait statusAddress result progress)
    (hyields : action.Yields acting.table (.ok progress) after []) :
    Leaves request (.join wait waker) waker
      (acting.act action (settleSyscall request) (·.forget request)) := by
  obtain ⟨effects, -, hact⟩ :=
    act_of_ok (settleSyscall request) (·.forget request) hyields
  rw [hact]
  cases hbrings with
  | waiting => exact .wait rfl (waitOf?_keep _) .parked
  | returned _ value written => exact .nothing (waitOf?_forget _ _) nofun

theorem leaves_syscall (sound : kernel.table.Sound) (request : RequestId) (call : Syscall)
    (waker : Waker) (memory : Memory) :
    Leaves request (call.demand kernel.table request waker) waker
      (kernel.act (pollSyscall call request waker memory) (settleSyscall request)
        (·.forget request)) := by
  by_cases hjoin : ∃ wait used, call.demand kernel.table request waker = .join wait used
  · obtain ⟨wait, used, hdemand⟩ := hjoin
    obtain ⟨hrunning, hkind, target, htarget, rfl, rfl⟩ := Syscall.demand_join hdemand
    have hstart := start_join hrunning memory hkind
    rw [htarget] at hstart
    obtain ⟨result, after, -, hpoll⟩ :=
      Wait.poll_spec sound ⟨call.caller, target, request, false⟩ used
    obtain ⟨progress, hbrings, hcollecting⟩ := pollCollecting_yields hpoll call.secondWord memory
    rw [hdemand]
    exact leaves_collecting hbrings (.bind_silent hstart hcollecting)
  · -- without a wait the syscall has returned, or it has stopped on a fault
    have hanswer : (kernel.act (pollSyscall call request waker memory) (settleSyscall request)
        (·.forget request)).answer ≠ .pending := by
      obtain ⟨-, change⟩ | ⟨⟨fault, hfault⟩, -⟩ :=
        fulfils_pollSyscall sound request call waker memory
      · intro hpending
        have hplain := change.isPlain fun wait used hdemand ↦ hjoin ⟨wait, used, hdemand⟩
        rwa [hpending] at hplain
      · rw [hfault]
        nofun
    refine .nothing ?_ hanswer
    revert hanswer
    refine act_induction (fun reply ↦ reply.answer ≠ .pending → reply.kernel.waitOf? request = none)
      (fun table effects progress hanswer ↦ ?_) fun table effects failure _ ↦ waitOf?_forget _ _
    cases progress with
    | waiting wait statusAddress => exact absurd rfl hanswer
    | returned value written => exact waitOf?_forget _ _
    | loading load => exact waitOf?_forget _ _

theorem leaves_poll (sound : kernel.table.Sound) (request : RequestId) (waker : Waker)
    (memory : Memory) :
    Leaves request (kernel.demand (.poll request waker memory)) waker
      (kernel.poll request waker memory) := by
  cases hrequest : kernel.requests[request]? with
  | none =>
    simp only [demand, poll, hrequest]
    refine .nothing ?_ fun hanswer ↦ ?_
    · rw [waitOf?, hrequest, Option.bind_none]
    · cases hanswer
  | some entry =>
    simp only [demand, poll, hrequest]
    cases entry with
    | join wait => exact leaves_join kernel request wait waker
    | syscall call => exact leaves_syscall sound request call waker memory
    | collecting wait statusAddress =>
      obtain ⟨result, after, -, hpoll⟩ := Wait.poll_spec sound wait waker
      obtain ⟨progress, hbrings, hcollecting⟩ := pollCollecting_yields hpoll statusAddress memory
      exact leaves_collecting hbrings hcollecting

theorem requests_abandon (kernel : Kernel Waker) (request : RequestId) :
    (kernel.abandon request).kernel.requests[request]? = none := by
  have hforget (table : Table Waker) :
      ({ kernel with table }.forget request).requests[request]? = none := by
    rw [requests_forget, if_pos rfl]
  unfold abandon
  split
  · next hnone => exact hnone
  · exact hforget kernel.table
  · exact act_induction (·.kernel.requests[request]? = none) (fun table _ _ ↦ hforget table)
      fun table _ _ ↦ hforget table
  · exact act_induction (·.kernel.requests[request]? = none) (fun table _ _ ↦ hforget table)
      fun table _ _ ↦ hforget table

/-! ## Tidiness through a run -/

theorem SameBut.tidy {after : Kernel Waker} (same : SameBut kernel after request)
    (tidy : kernel.Tidy)
    (hopened : after.requests[request]? ≠ none → kernel.requests[request]? ≠ none)
    (htoken : ∀ wait, after.waitOf? request = some wait → wait.token = request) : after.Tidy := by
  obtain ⟨hnext, hother⟩ := same
  constructor
  case opened =>
    intro id entry hentry
    rw [hnext]
    by_cases heq : id = request
    · subst heq
      obtain ⟨old, hold⟩ := Option.ne_none_iff_exists'.1 (hopened (by simp [hentry]))
      exact tidy.opened hold
    · rw [hother id heq] at hentry
      exact tidy.opened hentry
  case token_eq =>
    intro id wait hwait
    by_cases heq : id = request
    · subst heq
      exact htoken wait hwait
    · rw [waitOf?, hother id heq] at hwait
      exact tidy.token_eq hwait

theorem Tidy.poll (tidy : kernel.Tidy) (sound : kernel.table.Sound) (request : RequestId)
    (waker : Waker) (memory : Memory) : (kernel.poll request waker memory).kernel.Tidy := by
  refine (sameBut_poll kernel request waker memory).tidy tidy (fun hsome hnone ↦ ?_)
    fun wait hwait ↦ ?_
  · simp only [Kernel.poll, hnone] at hsome
    exact hsome rfl
  · cases leaves_poll sound request waker memory with
    | nothing hgone _ =>
      rw [hgone] at hwait
      cases hwait
    | wait hdemand hleft =>
      rw [hleft] at hwait
      cases hwait
      have htoken := tidy.token_of_poll hdemand
      exact htoken

theorem Tidy.abandon (tidy : kernel.Tidy) (request : RequestId) :
    (kernel.abandon request).kernel.Tidy := by
  have hnone := requests_abandon kernel request
  refine (sameBut_abandon kernel request).tidy tidy (fun hsome ↦ absurd hnone hsome)
    fun wait hwait ↦ ?_
  rw [waitOf?, hnone, Option.bind_none] at hwait
  cases hwait

theorem Tidy.perform (tidy : kernel.Tidy) (sound : kernel.table.Sound) (call : Call Waker) :
    (kernel.perform call).kernel.Tidy := by
  by_cases hnone : call.request? = none
  · obtain ⟨entry, hrequests, htoken, hnext⟩ | ⟨hrequests, hnext⟩ :=
      requests_of_none kernel hnone
    · have hrequestOf (id : RequestId) : (kernel.perform call).kernel.requests[id]? =
          if kernel.nextRequest = id then some entry else kernel.requests[id]? := by
        simp [hrequests, Std.ExtTreeMap.getElem?_insert]
      constructor
      case opened =>
        intro id opened hopened
        rw [hrequestOf] at hopened
        rw [hnext]
        split at hopened
        · next heq => exact heq ▸ Nat.lt_succ_self _
        · exact Nat.lt_succ_of_lt (tidy.opened hopened)
      case token_eq =>
        intro id wait hwait
        rw [waitOf?, hrequestOf] at hwait
        split at hwait
        · next heq => exact heq ▸ htoken wait hwait
        · exact tidy.token_eq hwait
    · constructor
      case opened =>
        intro id entry hentry
        rw [hrequests] at hentry
        rw [hnext]
        exact tidy.opened hentry
      case token_eq =>
        intro id wait hwait
        rw [waitOf?, hrequests] at hwait
        exact tidy.token_eq hwait
  · cases call with
    | poll request waker memory => exact tidy.poll sound request waker memory
    | abandon request => exact tidy.abandon request
    | spawn | finishLoad | terminate | shutdown | openJoin | openSyscall => exact absurd rfl hnone

theorem Run.tidy {past : List (Step Waker)} (hrun : Run past kernel) : kernel.Tidy := by
  induction hrun with
  | start => exact ⟨by simp [initial], by simp [initial, waitOf?]⟩
  | step hrun call _ ih => exact ih.perform hrun.sound call

/-! ## One request -/

/-- A call that does not name a request leaves it alone. -/
theorem requests_untouched {call : Call Waker} (hopened : request < kernel.nextRequest)
    (huntouched : call.request? ≠ some request) :
    (kernel.perform call).kernel.requests[request]? = kernel.requests[request]? := by
  by_cases hnone : call.request? = none
  · obtain ⟨other, hrequests, -⟩ | ⟨hrequests, -⟩ := requests_of_none kernel hnone
    · simp [hrequests, Std.ExtTreeMap.getElem?_insert, Nat.ne_of_gt hopened]
    · rw [hrequests]
  · cases call with
    | poll other waker memory =>
      have hne : request ≠ other := fun heq ↦ huntouched (congrArg some heq.symm)
      exact (sameBut_poll kernel other waker memory).2 request hne
    | abandon other =>
      have hne : request ≠ other := fun heq ↦ huntouched (congrArg some heq.symm)
      exact (sameBut_abandon kernel other).2 request hne
    | spawn | finishLoad | terminate | shutdown | openJoin | openSyscall => exact absurd rfl hnone

theorem Tidy.requests_untouched (tidy : kernel.Tidy) {call : Call Waker} {entry : Request}
    (hrequest : kernel.requests[request]? = some entry)
    (huntouched : call.request? ≠ some request) :
    (kernel.perform call).kernel.requests[request]? = some entry :=
  (Kernel.requests_untouched (tidy.opened hrequest) huntouched).trans hrequest

theorem nextRequest_le (kernel : Kernel Waker) (call : Call Waker) :
    kernel.nextRequest ≤ (kernel.perform call).kernel.nextRequest := by
  by_cases hnone : call.request? = none
  · obtain ⟨entry, -, -, hnext⟩ | ⟨-, hnext⟩ := requests_of_none kernel hnone
    · exact hnext ▸ Nat.le_succ _
    · exact Nat.le_of_eq hnext.symm
  · cases call with
    | poll other waker memory => exact Nat.le_of_eq (sameBut_poll kernel other waker memory).1.symm
    | abandon other => exact Nat.le_of_eq (sameBut_abandon kernel other).1.symm
    | spawn | finishLoad | terminate | shutdown | openJoin | openSyscall => exact absurd rfl hnone

/-- A request that is gone does not come back. -/
theorem requests_of_gone {call : Call Waker} (hopened : request < kernel.nextRequest)
    (hgone : kernel.requests[request]? = none) :
    (kernel.perform call).kernel.requests[request]? = none := by
  by_cases huntouched : call.request? = some request
  · cases call with
    | poll other waker memory =>
      cases huntouched
      simp only [perform, poll, hgone]
    | abandon other =>
      cases huntouched
      exact requests_abandon kernel request
    | spawn | finishLoad | terminate | shutdown | openJoin | openSyscall => cases huntouched
  · rw [requests_untouched hopened huntouched, hgone]

/-- What is left of a request that was polled is a wait. -/
theorem wait?_of_polled {waker : Waker} {memory : Memory} {entry : Request}
    (hentry : (kernel.poll request waker memory).kernel.requests[request]? = some entry) :
    entry.wait? ≠ none := by
  have hkeep (table : Table Waker) (kept : Request) (hkept : kept.wait? ≠ none) :
      ({ kernel with table }.keep request kept).requests[request]? = some entry →
        entry.wait? ≠ none := by
    intro h
    rw [requests_keep, if_pos rfl, Option.some_inj] at h
    exact h ▸ hkept
  have hforget (acting : Kernel Waker) :
      (acting.forget request).requests[request]? = some entry → entry.wait? ≠ none := by
    intro h
    rw [requests_forget, if_pos rfl] at h
    cases h
  have hsettle (table : Table Waker) (progress : Progress) :
      (settleSyscall request { kernel with table } progress).1.requests[request]? = some entry →
        entry.wait? ≠ none := by
    cases progress with
    | waiting wait statusAddress => exact hkeep table _ (Option.some_ne_none _)
    | returned value written => exact hforget _
    | loading load => exact hforget _
  revert hentry
  let motive (reply : Reply Waker) : Prop :=
    reply.kernel.requests[request]? = some entry → entry.wait? ≠ none
  change motive (kernel.poll request waker memory)
  unfold poll
  split
  · next hnone =>
    intro hsome
    rw [hnone] at hsome
    cases hsome
  · exact act_induction motive (fun table _ _ ↦ hkeep table _ (Option.some_ne_none _))
      fun table _ _ ↦ hforget _
  · exact act_induction motive (fun table _ progress ↦ hsettle table progress)
      fun table _ _ ↦ hforget _
  · exact act_induction motive (fun table _ progress ↦ hsettle table progress)
      fun table _ _ ↦ hforget _

/-- Only a drop gives up a wait. -/
theorem Tidy.call_of_leave (tidy : kernel.Tidy) {call : Call Waker} {wait : Wait}
    (hdemand : kernel.demand call = .leave wait) : call = .abandon wait.token := by
  have hrequest := tidy.token_of_leave hdemand
  cases call with
  | poll other waker memory =>
    exact absurd hdemand (demand_poll_ne_leave kernel other waker memory wait)
  | abandon other =>
    cases hrequest
    rfl
  | spawn | finishLoad | terminate | shutdown | openJoin | openSyscall => cases hrequest

end Lifecycle.Kernel
