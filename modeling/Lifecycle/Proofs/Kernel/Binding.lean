import Lifecycle.Proofs.Kernel.Slots
import Lifecycle.Proofs.Kernel.Statuses
import Lifecycle.Proofs.Kernel.Wakeup
import Lifecycle.Proofs.Kernel.Withdrawal

/-!
# What a parked wait is bound to

A poll that parks a wait binds it to two processes: a running target, whose slot it holds, and the
target's parent. It stays bound until the target's status is collected, the target is withdrawn, the
parent ends, the machine stops or the request is dropped. Nothing else can part them.
-/

namespace Lifecycle

variable {Waker : Type}

/-- Who has a record already is not the one that is taken in. -/
theorem Table.Inserted.ne_of_born {before after : Table Waker} {parent : Option Pid}
    {name : String} {new pid : Pid} {birth : Nat} (inserted : before.Inserted after parent name new)
    (hborn : before.birthOf? pid = some birth) : pid ≠ new := by
  rintro rfl
  rw [birthOf?, inserted.absent] at hborn
  cases hborn

namespace Kernel

variable {past earlier later : List (Step Waker)} {kernel : Kernel Waker} {first step : Step Waker}
  {request : RequestId} {wait : Wait} {waker : Waker}

/-! ## Polls that park -/

/-- A poll that leaves its request parked, and the two processes that the wait is about. -/
structure Parking (step : Step Waker) where
  request : RequestId
  waker : Waker
  memory : Memory
  target : Pid
  caller : Pid
  targetBirth : Nat
  callerBirth : Nat
  call_eq : step.call = .poll request waker memory
  answer_eq : step.reply.answer = .pending
  waitOf?_eq : step.after.waitOf? request = some ⟨caller, target, request, true⟩
  target_born : step.after.table.birthOf? target = some targetBirth
  caller_born : step.after.table.birthOf? caller = some callerBirth

/-- A poll that is answered with nothing yet leaves its wait parked where it should be. -/
theorem exists_parked (sound : step.before.table.Sound) (tidy : step.before.Tidy)
    (hsafe : ¬ step.reply.Faulted) {memory : Memory}
    (hcall : step.call = .poll request waker memory) (hanswer : step.reply.answer = .pending) :
    ∃ wait : Wait, step.after.waitOf? request = some wait ∧ wait.token = request ∧
      wait.parked = true ∧ Parked step.after.table wait waker := by
  obtain ⟨kernel, call⟩ := step
  cases hcall
  have change := change_of_safe sound hsafe
  have hpending : (kernel.perform (.poll request waker memory)).answer = .pending := hanswer
  cases leaves_poll sound request waker memory with
  | nothing _ hnot => exact absurd hanswer hnot
  | @wait polled outcome hdemand hleft hshows =>
    rw [hdemand, hpending] at change
    have houtcome : outcome = none := hshows.pending_iff.1 hanswer
    subst houtcome
    have hparked := change.parked_of_pending sound
    have htoken : polled.token = request := tidy.token_of_poll hdemand
    exact ⟨polled.after none, hleft, htoken, rfl, hparked⟩

/-- Every poll that is answered with nothing yet parks its request. -/
theorem exists_parking (sound : step.before.table.Sound) (tidy : step.before.Tidy)
    (hsafe : ¬ step.reply.Faulted) {memory : Memory}
    (hcall : step.call = .poll request waker memory) (hanswer : step.reply.answer = .pending) :
    ∃ parking : Parking step, parking.request = request ∧ parking.waker = waker := by
  obtain ⟨⟨caller, target, token, parked⟩, hwait, rfl, rfl, hparked⟩ :=
    exists_parked sound tidy hsafe hcall hanswer
  obtain ⟨hrunning, hparent, -⟩ := parked_iff.1 hparked
  have hafter := (step.change sound hsafe).sound sound
  obtain ⟨targetBirth, htarget⟩ := Table.exists_birthOf? hrunning
  obtain ⟨callerBirth, hcaller⟩ := Table.exists_birthOf? (hafter.parent_running hparent)
  exact ⟨⟨_, waker, memory, target, caller, targetBirth, callerBirth, hcall, hanswer, hwait,
    htarget, hcaller⟩, rfl, rfl⟩

/-- A poll that keeps its request changes no more of the wait than whether it is parked. -/
theorem wait?_of_poll (sound : kernel.table.Sound) {memory : Memory} {entry : Request}
    (hwait : kernel.waitOf? request = some wait)
    (hentry : (kernel.perform (.poll request waker memory)).kernel.requests[request]? =
      some entry) : ∃ parked, entry.wait? = some { wait with parked } := by
  have hafter : (kernel.poll request waker memory).kernel.waitOf? request = entry.wait? := by
    rw [waitOf?]
    exact congrArg (·.bind Request.wait?) hentry
  cases leaves_poll sound request waker memory with
  | nothing hgone _ =>
    rw [hafter] at hgone
    exact absurd hgone (wait?_of_polled hentry)
  | @wait polled outcome hdemand hleft _ =>
    have hself : (Call.poll request waker memory).request? = some request := rfl
    have hsame := demand_of_waitOf? hwait hself
    rw [hdemand, Demand.wait?, Option.some_inj] at hsame
    rw [hafter, hsame] at hleft
    exact ⟨outcome.isNone, hleft⟩

namespace Parking

variable (parking : Parking first)

/-- The wait of the request, as the poll left it. -/
def own : Wait := ⟨parking.caller, parking.target, parking.request, true⟩

theorem parked (sound : first.before.table.Sound) (tidy : first.before.Tidy)
    (hsafe : ¬ first.reply.Faulted) : Parked first.after.table parking.own parking.waker := by
  obtain ⟨wait, hwait, -, -, hparked⟩ :=
    exists_parked sound tidy hsafe parking.call_eq parking.answer_eq
  rw [parking.waitOf?_eq] at hwait
  cases hwait
  exact hparked

/-! ## The wait of the request -/

/-- The request is still about the same two processes, or it is gone for good. -/
structure Lasting (kernel : Kernel Waker) : Prop where
  opened : parking.request < kernel.nextRequest
  entry_eq {entry : Request} (hentry : kernel.requests[parking.request]? = some entry) :
    ∃ parked, entry.wait? = some { parking.own with parked }

variable {parking}

theorem Lasting.perform (lasting : parking.Lasting kernel) (sound : kernel.table.Sound)
    (call : Call Waker) : parking.Lasting (kernel.perform call).kernel where
  opened := Nat.lt_of_lt_of_le lasting.opened (nextRequest_le kernel call)
  entry_eq := by
    intro entry hentry
    have hbefore : kernel.requests[parking.request]? ≠ none := fun hgone ↦ by
      rw [requests_of_gone lasting.opened hgone] at hentry
      cases hentry
    by_cases hnamed : call.request? = some parking.request
    case neg =>
      rw [requests_untouched lasting.opened hnamed] at hentry
      exact lasting.entry_eq hentry
    obtain ⟨old, hold⟩ := Option.ne_none_iff_exists'.1 hbefore
    obtain ⟨parked, hwait⟩ := lasting.entry_eq hold
    cases call with
    | poll request waker memory =>
      cases hnamed
      have hwaitOf : kernel.waitOf? parking.request = some { parking.own with parked } := by
        rw [waitOf?, hold, Option.bind_some, hwait]
      obtain ⟨now, hnow⟩ := wait?_of_poll sound hwaitOf hentry
      exact ⟨now, hnow⟩
    | abandon request =>
      cases hnamed
      have hgone : (kernel.perform (.abandon parking.request)).kernel.requests[parking.request]? =
          none := requests_abandon kernel parking.request
      rw [hgone] at hentry
      cases hentry
    | spawn | finishLoad | terminate | shutdown | openJoin | openSyscall => cases hnamed

variable (parking)

theorem lasting (hrun : Run (earlier ++ first :: later) kernel) : parking.Lasting kernel := by
  refine hrun.since (motive := fun _ ↦ parking.Lasting) ?_ ?_
  · have hfirst := hrun.of_append
    have hwait := parking.waitOf?_eq
    constructor
    case opened =>
      obtain ⟨entry, hentry, -⟩ := Option.bind_eq_some_iff.1 hwait
      exact (hfirst.1.tidy.perform hfirst.1.sound first.call).opened hentry
    case entry_eq =>
      intro entry hentry
      rw [waitOf?, hentry, Option.bind_some] at hwait
      exact ⟨true, hwait⟩
  · intro sofar step rest _ hbefore _ lasting
    exact lasting.perform hbefore.sound step.call

/-- As long as the request is open, a poll of it attempts to join its target for its caller. -/
theorem demand_of_poll (hrun : Run (earlier ++ first :: later) step.before)
    (hopen : step.before.requests[parking.request]? ≠ none) {memory : Memory}
    (hcall : step.call = .poll parking.request waker memory) :
    ∃ parked, step.demand = .join { parking.own with parked } waker := by
  obtain ⟨entry, hentry⟩ := Option.ne_none_iff_exists'.1 hopen
  obtain ⟨parked, hwait⟩ := (parking.lasting hrun).entry_eq hentry
  refine ⟨parked, ?_⟩
  cases entry with
  | join | collecting =>
    cases hwait
    simp only [Step.demand, hcall, demand, hentry]
  | syscall => cases hwait

/-! ## Bound waits -/

/-- The wait holds the slot of its target, and both processes are those it was parked with. -/
structure Bound (table : Table Waker) : Prop where
  target_born : table.birthOf? parking.target = some parking.targetBirth
  caller_born : table.birthOf? parking.caller = some parking.callerBirth
  parent_eq : table.parentOf? parking.target = some parking.caller
  held : table.IsHeld parking.target parking.request

theorem bound (hrun : Run past first.before) (hsafe : ¬ first.reply.Faulted) :
    parking.Bound first.after.table := by
  obtain ⟨-, hparent, hclaim⟩ := parked_iff.1 (parking.parked hrun.sound hrun.tidy hsafe)
  exact ⟨parking.target_born, parking.caller_born, hparent, _, hclaim, rfl⟩

/-- What parts a wait from its target or from its caller. -/
inductive Severed (step : Step Waker) : Prop where
  | cleared (hdemand : step.demand = .clear) (hstops : step.stops = true)
  /-- A process ends and is taken for the last that runs. -/
  | last {pid : Pid} {status : ExitStatus} (hdemand : step.demand = .finish pid status)
      (hrunning : step.before.table.phaseOf? pid = some .running) (hstops : step.stops = true)
  | callerEnded {status : ExitStatus} (hdemand : step.demand = .finish parking.caller status)
  | withdrawn {load : Load} {cause : LoadFailure}
      (hdemand : step.demand = .settle load (.error cause)) (hpid : load.pid = parking.target)
  /-- The request itself collects the status. -/
  | collected {wait : Wait} {waker : Waker} {status : ExitStatus}
      (hdemand : step.demand = .join wait waker) (htoken : wait.token = parking.request)
      (hexited : step.before.table.phaseOf? parking.target = some (.exited status))
  | dropped (hcall : step.call = .abandon parking.request)

variable {parking}

namespace Bound

variable {before after : Table Waker}

theorem caller_running (bound : parking.Bound before) (sound : before.Sound) :
    before.phaseOf? parking.caller = some .running := sound.parent_running bound.parent_eq

theorem of_views (bound : parking.Bound before)
    (htarget : after.birthOf? parking.target = before.birthOf? parking.target)
    (hcaller : after.birthOf? parking.caller = before.birthOf? parking.caller)
    (hparent : after.parentOf? parking.target = before.parentOf? parking.target)
    (hheld : after.IsHeld parking.target parking.request) : parking.Bound after :=
  ⟨htarget.trans bound.target_born, hcaller.trans bound.caller_born,
    hparent.trans bound.parent_eq, hheld⟩

theorem of_inserted {parent : Option Pid} {name : String} {new : Pid}
    (bound : parking.Bound before) (inserted : before.Inserted after parent name new) :
    parking.Bound after := by
  have htarget := inserted.ne_of_born bound.target_born
  have hcaller := inserted.ne_of_born bound.caller_born
  obtain ⟨claim, hclaim, htoken⟩ := bound.held
  refine bound.of_views ?_ ?_ ?_ ⟨claim, ?_, htoken⟩
  · rw [inserted.birthOf?_eq, if_neg htarget]
  · rw [inserted.birthOf?_eq, if_neg hcaller]
  · rw [inserted.parentOf?_eq, if_neg htarget]
  · rw [inserted.claimOf?_eq, if_neg htarget, hclaim]

/-- A process that has children is not removed. -/
theorem of_removed {gone : Pid} (bound : parking.Bound before) (sound : before.Sound)
    (removed : before.Removed after gone) (hother : gone ≠ parking.target) :
    parking.Bound after := by
  have htarget : parking.target ≠ gone := hother.symm
  have hcaller : parking.caller ≠ gone := by
    rintro rfl
    exact removed.childless _ (sound.hasChild_iff_parentOf?.2 bound.parent_eq)
  obtain ⟨claim, hclaim, htoken⟩ := bound.held
  refine bound.of_views ?_ ?_ ?_ ⟨claim, ?_, htoken⟩
  · rw [removed.birthOf?_eq, if_neg htarget]
  · rw [removed.birthOf?_eq, if_neg hcaller]
  · rw [removed.parentOf?_eq, if_neg htarget]
  · rw [removed.claimOf?_eq, if_neg htarget, hclaim]

/-- The wait stays bound when its target ends, and when others do. -/
theorem of_ended {pid : Pid} {status : ExitStatus} {wakers : List Waker}
    (bound : parking.Bound before) (sound : before.Sound)
    (ended : before.Ended after pid status wakers) (hcaller : pid ≠ parking.caller) :
    parking.Bound after := by
  have hstranger : before.parentOf? parking.target ≠ some pid := by
    rw [bound.parent_eq, ne_eq, Option.some_inj]
    exact hcaller.symm
  have hrunning := bound.caller_running sound
  have hcallerPhase : after.phaseOf? parking.caller ≠ none := by
    rw [ended.phaseOf?_eq sound, if_neg hcaller.symm, if_neg fun h ↦ h.2.2 hrunning, hrunning]
    exact Option.some_ne_none _
  have htargetPhase : after.phaseOf? parking.target ≠ none := by
    obtain ⟨phase, hphase⟩ := Table.exists_phaseOf? bound.target_born
    rw [ended.phaseOf?_eq sound]
    split
    · next hself =>
      rw [← hself, bound.parent_eq, if_neg (Option.some_ne_none _)]
      exact Option.some_ne_none _
    · rw [if_neg fun h ↦ hstranger h.1, hphase]
      exact Option.some_ne_none _
  refine bound.of_views ?_ ?_ ?_ ?_
  · rw [ended.birthOf?_eq sound, if_neg htargetPhase]
  · rw [ended.birthOf?_eq sound, if_neg hcallerPhase]
  · rw [ended.parentOf?_eq sound, if_neg hstranger]
  · obtain ⟨claim, hclaim, htoken⟩ := bound.held
    rw [Table.IsHeld, ended.claimOf?_eq sound]
    split
    · next hself =>
      rw [← hself, bound.parent_eq, if_neg (Option.some_ne_none _), hclaim]
      exact ⟨_, rfl, htoken⟩
    · exact ⟨claim, hclaim, htoken⟩

theorem of_setClaim {pid : Pid} {claim : Option (Claim Waker)} (bound : parking.Bound before)
    (sound : before.Sound)
    (hheld : pid = parking.target → ∃ held, claim = some held ∧ held.token = parking.request) :
    parking.Bound (before.setClaim pid claim) := by
  refine bound.of_views (Table.birthOf?_setClaim sound _ _ _)
    (Table.birthOf?_setClaim sound _ _ _) (Table.parentOf?_setClaim sound _ _ _) ?_
  by_cases hself : pid = parking.target
  · obtain ⟨held, rfl, htoken⟩ := hheld hself
    obtain ⟨phase, hphase⟩ := Table.exists_phaseOf? bound.target_born
    rw [hself]
    exact ⟨held, Table.claimOf?_setClaim_self sound _ _ hphase, htoken⟩
  · rw [Table.IsHeld, Table.claimOf?_setClaim sound, if_neg (Ne.symm hself)]
    exact bound.held

/-- While the wait is bound every other joiner of the target is refused. -/
theorem refused_of_other (bound : parking.Bound before) (hother : wait.token ≠ parking.request)
    (htarget : wait.target = parking.target) :
    before.joinResult wait.caller wait.target wait.token =
      .error (if wait.caller = parking.caller then .EBUSY else .ECHILD) := by
  rw [htarget, Table.joinResult_of_other bound.held hother, bound.parent_eq]
  simp only [Option.some_inj, eq_comm]

/-- The request still has its wait. -/
theorem waitOf?_eq (bound : parking.Bound kernel.table) (hrun : Run past kernel) :
    kernel.waitOf? parking.request = some parking.own := by
  obtain ⟨claim, hclaim, htoken⟩ := bound.held
  obtain ⟨⟨caller, target, token, parked⟩, waker, owned⟩ := hrun.owned hclaim
  have hwait := owned.waitOf?_eq
  have hrequest := hrun.tidy.token_eq hwait
  have htarget := owned.target_eq
  have hparked := owned.parked
  have hparent := owned.parent_eq
  rw [bound.parent_eq, Option.some_inj] at hparent
  rw [htoken] at hwait hrequest
  dsimp only at hrequest htarget hparked hparent
  subst hrequest htarget hparked hparent
  exact hwait

section Next

variable (bound : parking.Bound step.before.table) (hrun : Run past step.before)

include bound hrun

/-- Whoever polls the request polls that wait. -/
theorem wait_eq (hdemand : step.demand = .join wait waker) (htoken : wait.token = parking.request) :
    wait = parking.own := by
  obtain ⟨request, memory, hcall⟩ := call_of_join hdemand
  have hnamed : step.call.request? = some parking.request := by
    rw [Step.demand, hcall] at hdemand
    rw [hcall, ← htoken, hrun.tidy.token_of_poll hdemand]
    rfl
  have hwait : step.demand.wait? = some parking.own :=
    demand_of_waitOf? (bound.waitOf?_eq hrun) hnamed
  rw [hdemand, Demand.wait?, Option.some_inj] at hwait
  exact hwait

/-- The wait itself learns whether its target has ended. -/
theorem result_of_own (hdemand : step.demand = .join wait waker)
    (htoken : wait.token = parking.request) :
    step.before.table.joinResult wait.caller wait.target wait.token =
      .ok ((step.before.table.phaseOf? parking.target).bind Phase.status?) := by
  obtain rfl := bound.wait_eq hrun hdemand htoken
  exact Table.joinResult_of_own bound.held bound.parent_eq

/-- As long as the target runs, the wait keeps its slot. -/
theorem poll_running (hdemand : step.demand = .join wait waker)
    (htoken : wait.token = parking.request)
    (hrunning : step.before.table.phaseOf? parking.target = some .running) :
    step.Attempted none ∧ step.after.table.IsHeld parking.target parking.request := by
  have sound := hrun.sound
  have hresult := bound.result_of_own hrun hdemand htoken
  have hattempted := Step.attempted sound hdemand
  have hattempts := Step.attempts sound hdemand
  rw [hrunning] at hresult
  rw [Wait.outcomeIn, hresult] at hattempted
  rw [hresult] at hattempts
  obtain rfl := bound.wait_eq hrun hdemand htoken
  exact ⟨hattempted, hattempts.isHeld_of_parked sound⟩

/-- Once the target has exited the wait takes its status and its record. -/
theorem poll_exited {status : ExitStatus} (hdemand : step.demand = .join wait waker)
    (htoken : wait.token = parking.request)
    (hexited : step.before.table.phaseOf? parking.target = some (.exited status)) :
    step.Attempted (some (.ok status)) ∧ step.delivery? = some (parking.targetBirth, status) ∧
      step.before.table.Removed step.after.table parking.target := by
  have sound := hrun.sound
  have hresult := bound.result_of_own hrun hdemand htoken
  have hattempted := Step.attempted sound hdemand
  have hattempts := Step.attempts sound hdemand
  rw [hexited] at hresult
  have houtcome : wait.outcomeIn step.before.table = some (.ok status) :=
    congrArg Wait.outcomeOf hresult
  rw [houtcome] at hattempted
  rw [hresult] at hattempts
  obtain rfl := bound.wait_eq hrun hdemand htoken
  refine ⟨hattempted, (Step.delivery?_iff sound hdemand).2 ⟨houtcome, bound.target_born⟩, ?_⟩
  generalize step.after.table = after at hattempts ⊢
  cases hattempts with
  | collected _ _ hremoved _ => exact hremoved

theorem next_of_join (hdemand : step.demand = .join wait waker) :
    parking.Bound step.after.table ∨ parking.Severed step := by
  have sound := hrun.sound
  have hattempts := Step.attempts sound hdemand
  by_cases htoken : wait.token = parking.request
  · rw [bound.result_of_own hrun hdemand htoken] at hattempts
    obtain ⟨phase, hphase⟩ := Table.exists_phaseOf? bound.target_born
    cases phase with
    | exited status => exact .inr (.collected hdemand htoken hphase)
    | running =>
      rw [hphase] at hattempts
      generalize step.after.table = after at hattempts ⊢
      cases hattempts with
      | parked => exact .inl (bound.of_setClaim sound fun _ ↦ ⟨_, rfl, htoken⟩)
  · left
    by_cases htarget : wait.target = parking.target
    · have hrefused := bound.refused_of_other htoken htarget
      rw [(Step.table_of_refused sound hdemand hrefused).2]
      exact bound
    · generalize step.before.table.joinResult wait.caller wait.target wait.token = result
        at hattempts
      generalize step.after.table = after at hattempts ⊢
      cases hattempts with
      | stranger | busy => exact bound
      | collected _ _ hremoved _ => exact bound.of_removed sound hremoved htarget
      | parked => exact bound.of_setClaim sound fun heq ↦ absurd heq htarget

theorem next_of_leave (hdemand : step.demand = .leave wait)
    (hheld : step.before.table.IsHeld wait.target wait.token) :
    parking.Bound (step.before.table.setClaim wait.target none) ∨ parking.Severed step := by
  by_cases htoken : wait.token = parking.request
  · exact .inr (.dropped (htoken ▸ hrun.tidy.call_of_leave hdemand))
  · refine .inl (bound.of_setClaim hrun.sound fun htarget ↦ ?_)
    obtain ⟨claim, hclaim, hholder⟩ := hheld
    obtain ⟨held, hsame, hrequest⟩ := bound.held
    rw [htarget, hsame, Option.some_inj] at hclaim
    exact absurd (hholder.symm.trans (hclaim ▸ hrequest)) htoken

/-- One step leaves the wait bound, or it is one of those that part it from its processes. -/
theorem next (hsafe : ¬ step.reply.Faulted) :
    parking.Bound step.after.table ∨ parking.Severed step := by
  have sound := hrun.sound
  have change := step.change sound hsafe
  have hstops := step.stops_eq
  by_cases hjoin : ∃ wait waker, step.demand = .join wait waker
  · obtain ⟨wait, waker, hdemand⟩ := hjoin
    exact bound.next_of_join hrun hdemand
  generalize hdemand : step.demand = demand at change
  generalize step.after.table = after at change ⊢
  generalize step.after.loads = loads at change
  generalize step.reply.audible = audible at change hstops
  generalize step.reply.answer = answer at change
  cases change with
  | unchanged | admitted | gone => exact .inl bound
  | inserted hinserted => exact .inl (bound.of_inserted hinserted)
  | @withdrawn load _ _ _ _ _ hremoved =>
    by_cases hpid : load.pid = parking.target
    · exact .inr (.withdrawn hdemand hpid)
    · exact .inl (bound.of_removed sound hremoved hpid)
  | @ended pid status _ _ _ hends =>
    by_cases hcaller : pid = parking.caller
    · exact .inr (.callerEnded (hcaller ▸ hdemand))
    · cases hends with
      | left hended _ => exact .inl (bound.of_ended sound hended hcaller)
      | last hended _ =>
        exact .inr (.last hdemand hended.was_running (by simp [hstops, Effect.isStop]))
  | cleared => exact .inr (.cleared hdemand (by simp [hstops, Effect.isStop]))
  | polled => exact absurd ⟨_, _, hdemand⟩ hjoin
  | released hheld => exact bound.next_of_leave hrun hdemand hheld

end Next

end Bound

end Parking

/-- The root of the family waits for its child. -/
def familyParking : Parking (⟨initial.reach (family.take 5), .poll 0 7 blank⟩ : Step Nat) where
  request := 0
  waker := 7
  memory := blank
  target := 2
  caller := 1
  targetBirth := 1
  callerBirth := 0
  call_eq := rfl
  answer_eq := rfl
  waitOf?_eq := by decide +kernel
  target_born := by decide +kernel
  caller_born := by decide +kernel

end Kernel

end Lifecycle
