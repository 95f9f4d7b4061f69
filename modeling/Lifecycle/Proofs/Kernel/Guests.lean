import Lifecycle.Proofs.Kernel.Hosting
import Lifecycle.Proofs.Kernel.Slots

/-!
# Kernels that host a guest

A guest is a wait that is opened, left parked and dropped. A kernel that hosts one mirrors the
kernel without: the requests that were opened after the guest have other ids, and other tokens, and
the table has the guest in his seat. Every call of another party keeps this up and gets the same
answer, and so do the polls of the guest himself as long as they leave him parked.
-/

namespace Lifecycle.Kernel

variable {Waker : Type} {guest : RequestId} {seat : Option (Pid × Pid)}
  {hosting plain : Kernel Waker}

/-! ## Requests, calls and answers -/

def Request.raise (guest : RequestId) : Request → Request
  | .join wait => .join (wait.raise guest)
  | .syscall call => .syscall call
  | .collecting wait statusAddress => .collecting (wait.raise guest) statusAddress

theorem Request.raise_of_earlier {entry : Request}
    (hearlier : ∀ wait, entry.wait? = some wait → wait.token < guest) :
    entry.raise guest = entry := by
  have hwait (wait : Wait) (hlt : wait.token < guest) : wait.raise guest = wait := by
    unfold Wait.raise
    rw [Token.raise_of_lt hlt]
  cases entry with
  | join wait => exact congrArg Request.join (hwait wait (hearlier wait rfl))
  | syscall call => rfl
  | collecting wait statusAddress =>
    exact congrArg (Request.collecting · statusAddress) (hwait wait (hearlier wait rfl))

/-- A call as it is with a guest around. -/
def Call.raise (guest : RequestId) : Call Waker → Call Waker
  | .poll request waker memory => .poll (Token.raise guest request) waker memory
  | .abandon request => .abandon (Token.raise guest request)
  | call => call

/-- An answer as it is with a guest around: all it may tell of him is the id of a request. -/
def Answer.raise (guest : RequestId) : Answer → Answer
  | .opened request => .opened (Token.raise guest request)
  | answer => answer

/-- Nobody else names the guest's request. -/
theorem Call.request?_raise (guest : RequestId) (call : Call Waker) :
    (call.raise guest).request? ≠ some guest := by
  have hne (request : RequestId) : some (Token.raise guest request) ≠ some guest :=
    mt Option.some_inj.1 (Token.raise_ne guest request)
  cases call with
  | poll request waker memory => exact hne request
  | abandon request => exact hne request
  | spawn | finishLoad | terminate | shutdown | openJoin | openSyscall => nofun

theorem Answer.raise_ofFailure (guest : RequestId) (failure : Failure) :
    (Answer.ofFailure failure).raise guest = .ofFailure failure := by
  cases failure <;> rfl

theorem Answer.faulted_raise {answer : Answer} {fault : Fault}
    (hfault : answer.raise guest = .faulted fault) : answer = .faulted fault := by
  cases answer <;> first | exact hfault | cases hfault

/-! ## Mirrors -/

/-- A kernel that hosts a guest, and the same one without him. -/
structure Mirrors (guest : RequestId) (seat : Option (Pid × Pid)) (hosting plain : Kernel Waker) :
    Prop where
  twin : hosting.table.Twin guest seat plain.table
  requests_raise (request : RequestId) :
    hosting.requests[Token.raise guest request]? =
      (plain.requests[request]?).map (·.raise guest)
  nextRequest_eq : hosting.nextRequest = plain.nextRequest + 1
  guest_le : guest ≤ plain.nextRequest
  loads_eq : hosting.loads = plain.loads

/-- Replies that are the same but for the guest. -/
structure Reply.Mirrors (guest : RequestId) (seat : Option (Pid × Pid))
    (reply plain : Reply Waker) : Prop where
  kernel : reply.kernel.Mirrors guest seat plain.kernel
  answer_eq : reply.answer = plain.answer.raise guest

namespace Mirrors

/-- The tables may change, and with them the guest's seat. -/
theorem withTable (mirrors : Mirrors guest seat hosting plain) {place : Option (Pid × Pid)}
    {one two : Table Waker} (twin : one.Twin guest place two) :
    Mirrors guest place { hosting with table := one } { plain with table := two } :=
  ⟨twin, mirrors.requests_raise, mirrors.nextRequest_eq, mirrors.guest_le, mirrors.loads_eq⟩

theorem withRequests (mirrors : Mirrors guest seat hosting plain)
    {left right : Std.ExtTreeMap RequestId Request}
    (hraise : ∀ request : RequestId,
      left[Token.raise guest request]? = (right[request]?).map (Request.raise guest)) :
    Mirrors guest seat { hosting with requests := left } { plain with requests := right } :=
  ⟨mirrors.twin, hraise, mirrors.nextRequest_eq, mirrors.guest_le, mirrors.loads_eq⟩

theorem withLoads (mirrors : Mirrors guest seat hosting plain) (loads : List Load) :
    Mirrors guest seat { hosting with loads } { plain with loads } :=
  ⟨mirrors.twin, mirrors.requests_raise, mirrors.nextRequest_eq, mirrors.guest_le, rfl⟩

theorem keep (mirrors : Mirrors guest seat hosting plain) (request : RequestId)
    (entry : Request) :
    Mirrors guest seat (hosting.keep (Token.raise guest request) (entry.raise guest))
      (plain.keep request entry) := by
  have hkept (other : RequestId) :
      (hosting.keep (Token.raise guest request) (entry.raise guest)).requests[Token.raise guest
        other]? = ((plain.keep request entry).requests[other]?).map (·.raise guest) := by
    rw [requests_keep, requests_keep]
    by_cases hsame : request = other
    · rw [if_pos hsame, if_pos (congrArg _ hsame), Option.map_some]
    · rw [if_neg hsame, if_neg (mt Token.raise_injective hsame), mirrors.requests_raise]
  exact mirrors.withRequests hkept

theorem forget (mirrors : Mirrors guest seat hosting plain) (request : RequestId) :
    Mirrors guest seat (hosting.forget (Token.raise guest request)) (plain.forget request) := by
  have hforgotten (other : RequestId) :
      (hosting.forget (Token.raise guest request)).requests[Token.raise guest other]? =
        ((plain.forget request).requests[other]?).map (·.raise guest) := by
    rw [requests_forget, requests_forget]
    by_cases hsame : request = other
    · rw [if_pos hsame, if_pos (congrArg _ hsame), Option.map_none]
    · rw [if_neg hsame, if_neg (mt Token.raise_injective hsame), mirrors.requests_raise]
  exact mirrors.withRequests hforgotten

/-- What becomes of the guest's own request is of no account. -/
theorem withOwn (mirrors : Mirrors guest seat hosting plain)
    {requests : Std.ExtTreeMap RequestId Request}
    (hothers : ∀ other, other ≠ guest → requests[other]? = hosting.requests[other]?) :
    Mirrors guest seat { hosting with requests } plain :=
  mirrors.withRequests fun request ↦
    (hothers _ (Token.raise_ne guest request)).trans (mirrors.requests_raise request)

/-- The request that is opened next has the next id on either side. -/
theorem raise_nextRequest (mirrors : Mirrors guest seat hosting plain) :
    Token.raise guest plain.nextRequest = hosting.nextRequest :=
  (Token.raise_of_le mirrors.guest_le).trans mirrors.nextRequest_eq.symm

theorem openRequest (mirrors : Mirrors guest seat hosting plain) (entry : Request) :
    Reply.Mirrors guest seat (hosting.openRequest (entry.raise guest))
      (plain.openRequest entry) := by
  have hkept := mirrors.keep plain.nextRequest entry
  rw [mirrors.raise_nextRequest] at hkept
  refine ⟨⟨hkept.twin, hkept.requests_raise, ?_, ?_, hkept.loads_eq⟩, ?_⟩
  · exact congrArg (· + 1) mirrors.nextRequest_eq
  · exact Nat.le_succ_of_le mirrors.guest_le
  · exact congrArg Answer.opened mirrors.raise_nextRequest.symm

/-- Actions that end alike are settled alike. -/
theorem act {α β : Type} {values : α → β → Prop} {first : Action Waker α}
    {second : Action Waker β} {settle : Kernel Waker → α → Kernel Waker × Answer}
    {other : Kernel Waker → β → Kernel Waker × Answer} {unsettle undo : Kernel Waker → Kernel Waker}
    (mirrors : Mirrors guest seat hosting plain)
    (hpairs : Action.Pairs (Table.Twin guest seat) values first second hosting.table plain.table)
    (hsettle : ∀ {left right : Kernel Waker} {value : α} {twin : β},
      Mirrors guest seat left right → values value twin →
        Mirrors guest seat (settle left value).1 (other right twin).1 ∧
          (settle left value).2 = (other right twin).2.raise guest)
    (hunsettle : ∀ {left right : Kernel Waker}, Mirrors guest seat left right →
      Mirrors guest seat (unsettle left) (undo right)) :
    Reply.Mirrors guest seat (hosting.act first settle unsettle)
      (plain.act second other undo) := by
  have hends := hpairs [] []
  unfold Kernel.act
  generalize first.run ⟨hosting.table, []⟩ = left at hends ⊢
  generalize second.run ⟨plain.table, []⟩ = right at hends ⊢
  cases hends with
  | done hvalues twin =>
    obtain ⟨hkernel, hanswer⟩ := hsettle (mirrors.withTable twin) hvalues
    exact ⟨hkernel, hanswer⟩
  | @failed failure _ _ twin =>
    exact ⟨hunsettle (mirrors.withTable twin), (Answer.raise_ofFailure guest failure).symm⟩

theorem actDone {first second : Action Waker Unit} (mirrors : Mirrors guest seat hosting plain)
    (hpairs : Action.Pairs (Table.Twin guest seat) (· = ·) first second hosting.table
      plain.table) :
    Reply.Mirrors guest seat (hosting.act first (fun kernel _ ↦ (kernel, .done)) id)
      (plain.act second (fun kernel _ ↦ (kernel, .done)) id) :=
  mirrors.act hpairs (fun mirrors _ ↦ ⟨mirrors, rfl⟩) fun mirrors ↦ mirrors

/-! ## One call -/

theorem pushLoad (mirrors : Mirrors guest seat hosting plain) (load : Load) :
    Mirrors guest seat (hosting.pushLoad load).1 (plain.pushLoad load).1 :=
  ⟨mirrors.twin, mirrors.requests_raise, mirrors.nextRequest_eq, mirrors.guest_le,
    congrArg (load :: ·) mirrors.loads_eq⟩

theorem settled (mirrors : Mirrors guest seat hosting plain) (request : RequestId)
    (progress : Progress) :
    Mirrors guest seat
        (settleSyscall (Token.raise guest request) hosting (progress.raise guest)).1
        (settleSyscall request plain progress).1 ∧
      (settleSyscall (Token.raise guest request) hosting (progress.raise guest)).2 =
        (settleSyscall request plain progress).2.raise guest := by
  cases progress with
  | waiting wait statusAddress =>
    exact ⟨mirrors.keep request (.collecting wait statusAddress), rfl⟩
  | returned value written => exact ⟨mirrors.forget request, rfl⟩
  | loading load => exact ⟨(mirrors.forget request).pushLoad load, rfl⟩

theorem poll (mirrors : Mirrors guest seat hosting plain) (request : RequestId) (waker : Waker)
    (memory : Memory)
    (hseat : ∀ wait used, hosting.demand (.poll (Token.raise guest request) waker memory) =
      .join wait used → seat ≠ some (wait.caller, wait.target)) :
    Reply.Mirrors guest seat (hosting.poll (Token.raise guest request) waker memory)
      (plain.poll request waker memory) := by
  have hrequests := mirrors.requests_raise request
  unfold Kernel.poll
  simp only [demand, hrequests] at hseat
  rw [hrequests]
  cases hentry : plain.requests[request]? with
  | none => exact ⟨mirrors, rfl⟩
  | some entry =>
    rw [hentry] at hseat
    cases entry with
    | join wait =>
      have hother : seat ≠ some (wait.caller, wait.target) := hseat (wait.raise guest) waker rfl
      apply mirrors.act (Wait.pairs_poll mirrors.twin wait hother waker)
      · rintro left right outcome _ mirrors rfl
        refine ⟨mirrors.keep request (.join (wait.after outcome)), ?_⟩
        cases outcome with
        | none => rfl
        | some result => cases result <;> rfl
      · exact fun mirrors ↦ mirrors.forget request
    | syscall call =>
      apply mirrors.act (pairs_pollSyscall mirrors.twin hseat memory)
      · rintro left right _ progress mirrors rfl
        exact mirrors.settled request progress
      · exact fun mirrors ↦ mirrors.forget request
    | collecting wait statusAddress =>
      have hother : seat ≠ some (wait.caller, wait.target) := hseat (wait.raise guest) waker rfl
      apply mirrors.act (pairs_pollCollecting mirrors.twin wait hother statusAddress waker memory)
      · rintro left right _ progress mirrors rfl
        exact mirrors.settled request progress
      · exact fun mirrors ↦ mirrors.forget request

theorem abandon (mirrors : Mirrors guest seat hosting plain) (request : RequestId) :
    Reply.Mirrors guest seat (hosting.abandon (Token.raise guest request))
      (plain.abandon request) := by
  have hgivesUp (wait : Wait) : Reply.Mirrors guest seat
      (hosting.act (wait.raise guest).abandon
        (fun kernel _ ↦ (kernel.forget (Token.raise guest request), .done))
        (·.forget (Token.raise guest request)))
      (plain.act wait.abandon (fun kernel _ ↦ (kernel.forget request, .done))
        (·.forget request)) :=
    mirrors.act (Wait.pairs_abandon mirrors.twin wait)
      (fun mirrors _ ↦ ⟨mirrors.forget request, rfl⟩) fun mirrors ↦ mirrors.forget request
  unfold Kernel.abandon
  rw [mirrors.requests_raise request]
  cases plain.requests[request]? with
  | none => exact ⟨mirrors, rfl⟩
  | some entry =>
    cases entry with
    | join wait => exact hgivesUp wait
    | syscall call => exact ⟨mirrors.forget request, rfl⟩
    | collecting wait statusAddress => exact hgivesUp wait

theorem finishLoad (mirrors : Mirrors guest seat hosting plain)
    (outcome : Except LoadFailure Entry) :
    Reply.Mirrors guest seat (hosting.finishLoad outcome) (plain.finishLoad outcome) := by
  unfold Kernel.finishLoad
  rw [mirrors.loads_eq]
  cases plain.loads with
  | nil => exact ⟨mirrors, rfl⟩
  | cons load loads =>
    have hloads := mirrors.withLoads loads
    cases hbySyscall : load.bySyscall with
    | true =>
      simp only [hbySyscall, if_true]
      apply hloads.act (Syscall.pairs_answerExec mirrors.twin load outcome)
      · rintro left right value _ mirrors rfl
        exact ⟨mirrors, rfl⟩
      · exact fun mirrors ↦ mirrors
    | false =>
      simp only [hbySyscall, Bool.false_eq_true, if_false]
      apply hloads.act (pairs_endLoad mirrors.twin load outcome)
      · rintro left right pid _ mirrors rfl
        exact ⟨mirrors, rfl⟩
      · exact fun mirrors ↦ mirrors

/-- What another party calls comes to the same with the guest around, unless it is a join for the
child in whose seat he is. -/
theorem perform (mirrors : Mirrors guest seat hosting plain) (call : Call Waker)
    (hseat : ∀ wait used, hosting.demand (call.raise guest) = .join wait used →
      seat ≠ some (wait.caller, wait.target)) :
    Reply.Mirrors guest seat (hosting.perform (call.raise guest)) (plain.perform call) := by
  cases call with
  | spawn parent path arguments =>
    change Reply.Mirrors guest seat (hosting.act _ Kernel.pushLoad id)
      (plain.act _ Kernel.pushLoad id)
    apply mirrors.act (pairs_beginLoad mirrors.twin parent path arguments false)
    · rintro left right load _ mirrors rfl
      exact ⟨mirrors.pushLoad load, rfl⟩
    · exact fun mirrors ↦ mirrors
  | finishLoad outcome => exact mirrors.finishLoad outcome
  | terminate pid status => exact mirrors.actDone (pairs_terminate mirrors.twin pid status)
  | shutdown => exact mirrors.actDone (pairs_shutdown mirrors.twin)
  | openJoin caller target =>
    change Reply.Mirrors guest seat
      (hosting.openRequest (.join ⟨caller, target, hosting.nextRequest, false⟩)) _
    rw [← mirrors.raise_nextRequest]
    exact mirrors.openRequest (.join ⟨caller, target, plain.nextRequest, false⟩)
  | openSyscall call => exact mirrors.openRequest (.syscall call)
  | poll request waker memory => exact mirrors.poll request waker memory hseat
  | abandon request => exact mirrors.abandon request

end Mirrors

/-! ## The guest's stay -/

/-- A kernel between the opening and the drop of a guest's wait, and the same one without him. -/
structure Hosted (guest : RequestId) (caller target : Pid) (parked : Bool)
    (hosting plain : Kernel Waker) : Prop where
  mirrors : Mirrors guest (if parked then some (caller, target) else none) hosting plain
  own : hosting.requests[guest]? = some (.join ⟨caller, target, guest, parked⟩)

variable {caller target : Pid} {parked : Bool}

/-- A guest who has just come has no seat yet. -/
theorem hosted_of_open {past : List (Step Waker)} (hrun : Run past plain) (caller target : Pid) :
    Hosted plain.nextRequest caller target false
      (plain.perform (.openJoin caller target)).kernel plain := by
  have tidy : plain.Tidy := hrun.tidy
  have hopened {request : RequestId} (hle : plain.nextRequest ≤ request) :
      plain.requests[request]? = none := by
    apply Option.eq_none_iff_forall_ne_some.2
    exact fun entry hentry ↦ absurd (tidy.opened hentry) (Nat.not_lt.2 hle)
  have hclaims (pid : Pid) (claim : Claim Waker) (hclaim : plain.table.claimOf? pid = some claim) :
      claim.token < plain.nextRequest := by
    obtain ⟨wait, waker, owned⟩ := hrun.owned hclaim
    obtain ⟨entry, hentry, -⟩ := Option.bind_eq_some_iff.1 owned.waitOf?_eq
    exact tidy.opened hentry
  have hentries {request : RequestId} {entry : Request}
      (hentry : plain.requests[request]? = some entry) :
      entry.raise plain.nextRequest = entry := by
    apply Request.raise_of_earlier
    intro wait hwait
    rw [tidy.token_eq (Option.bind_eq_some_iff.2 ⟨entry, hentry, hwait⟩)]
    exact tidy.opened hentry
  have hinserted (request : RequestId) :
      (plain.perform (.openJoin caller target)).kernel.requests[request]? =
        if plain.nextRequest = request then
          some (.join ⟨caller, target, plain.nextRequest, false⟩)
        else plain.requests[request]? :=
    requests_keep _ request
  have htwin : plain.table.Twin plain.nextRequest none plain.table :=
    Table.twin_of_later (fun _ _ hrecord ↦ hrun.sound.stored hrecord) hclaims
  refine ⟨⟨htwin, fun request ↦ ?_, rfl, Nat.le_refl _, rfl⟩, ?_⟩
  · rw [hinserted, if_neg (Token.raise_ne _ request).symm]
    obtain hlt | hle := Nat.lt_or_ge request plain.nextRequest
    · rw [Token.raise_of_lt hlt]
      cases hentry : plain.requests[request]? with
      | none => rfl
      | some entry => rw [Option.map_some, hentries hentry]
    · rw [Token.raise_of_le hle, hopened hle, hopened (Nat.le_succ_of_le hle), Option.map_none]
  · rw [hinserted, if_pos rfl]

namespace Hosted

theorem lt_nextRequest (hosted : Hosted guest caller target parked hosting plain) :
    guest < hosting.nextRequest := by
  rw [hosted.mirrors.nextRequest_eq]
  exact Nat.lt_succ_of_le hosted.mirrors.guest_le

theorem other (hosted : Hosted guest caller target parked hosting plain) {call : Call Waker}
    (hreply : Reply.Mirrors guest (if parked then some (caller, target) else none)
      (hosting.perform (call.raise guest)) (plain.perform call)) :
    Hosted guest caller target parked (hosting.perform (call.raise guest)).kernel
      (plain.perform call).kernel := by
  have hopened : guest < hosting.nextRequest := hosted.lt_nextRequest
  exact ⟨hreply.kernel,
    (requests_untouched hopened (call.request?_raise guest)).trans hosted.own⟩

/-- As long as his polls leave the guest parked he changes nothing. -/
theorem poll (hosted : Hosted guest caller target parked hosting plain)
    (sound : hosting.table.Sound) {waker : Waker} {memory : Memory}
    (hpending : (hosting.poll guest waker memory).answer = .pending) :
    Hosted guest caller target true (hosting.poll guest waker memory).kernel plain := by
  let wait : Wait := ⟨caller, target, guest, parked⟩
  obtain ⟨result, after, hattempts, hyields⟩ := wait.poll_spec sound waker
  obtain ⟨effects, -, hact⟩ := act_of_ok (settleJoin guest wait) (·.forget guest) hyields
  have hpoll : hosting.poll guest waker memory =
      hosting.act (wait.poll waker) (settleJoin guest wait) (·.forget guest) := by
    unfold Kernel.poll
    rw [hosted.own]
  rw [hpoll, hact] at hpending ⊢
  cases hattempts with
  | stranger => cases hpending
  | busy => cases hpending
  | collected => cases hpending
  | parked hparent hrunning hfree =>
    have hseat (place : Pid × Pid)
        (hplace : (if parked then some (caller, target) else none) = some place) :
        place = (caller, target) := by
      cases parked with
      | true => exact (Option.some_inj.1 hplace).symm
      | false => cases hplace
    have htwin := hosted.mirrors.twin.park hseat hparent hrunning hfree waker
    refine ⟨(hosted.mirrors.withTable htwin).withOwn fun other hne ↦ ?_, ?_⟩
    · exact (requests_keep _ other).trans (if_neg hne.symm)
    · exact (requests_keep _ guest).trans (if_pos rfl)

/-- When the guest has gone nothing is left of him. -/
theorem drop (hosted : Hosted guest caller target parked hosting plain)
    (sound : hosting.table.Sound) :
    Mirrors guest none (hosting.abandon guest).kernel plain ∧
      (hosting.abandon guest).answer = .done := by
  let wait : Wait := ⟨caller, target, guest, parked⟩
  have habandon : hosting.abandon guest =
      hosting.act wait.abandon (fun kernel _ ↦ (kernel.forget guest, .done))
        (·.forget guest) := by
    unfold Kernel.abandon
    rw [hosted.own]
  have hgone {after : Table Waker} (hyields : wait.abandon.Yields hosting.table (.ok ()) after [])
      (twin : after.Twin guest none plain.table) :
      Mirrors guest none (hosting.abandon guest).kernel plain ∧
        (hosting.abandon guest).answer = .done := by
    obtain ⟨effects, -, hact⟩ := act_of_ok
      (fun kernel _ ↦ (kernel.forget guest, .done)) (·.forget guest) hyields
    rw [habandon, hact]
    refine ⟨(hosted.mirrors.withTable twin).withOwn fun other hne ↦ ?_, rfl⟩
    exact (requests_forget { hosting with table := after } guest other).trans (if_neg hne.symm)
  have twin := hosted.mirrors.twin
  cases parked with
  | false => exact hgone (Wait.abandon_idle (.inl Bool.false_ne_true)) twin
  | true =>
    by_cases hheld : hosting.table.IsHeld target guest
    · exact hgone (Wait.abandon_held rfl hheld) (twin.leave sound hheld)
    · exact hgone (Wait.abandon_idle (.inr hheld)) (twin.vacate hheld)

end Hosted

end Lifecycle.Kernel
