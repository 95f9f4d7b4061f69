import Lifecycle.Proofs.Kernel.Requests
import Lifecycle.Proofs.Memory

/-!
# Attempts to join

Every poll of a wait, or of a JOIN syscall, is one attempt to join. What comes of the attempt
depends on the record of the target alone, and the answer to the poll shows it: a wait is answered
with the outcome itself, and a JOIN tells a status by a number and by what it writes. A poll never
stops on a fault.
-/

namespace Lifecycle.Kernel

variable {Waker : Type} {kernel : Kernel Waker} {step : Step Waker} {request : RequestId}
  {wait : Wait} {waker : Waker} {outcome : Option (Except Errno ExitStatus)}

/-- What comes of a poll's attempt to join: nothing if it parks, a status or a refusal. -/
def Step.outcome? (step : Step Waker) : Option (Option (Except Errno ExitStatus)) :=
  match step.demand with
  | .join wait waker =>
    match (wait.poll waker).run ⟨step.before.table, []⟩ with
    | .done outcome _ => some outcome
    | .failed .. => none
  | _ => none

/-- A poll makes an attempt to join with a given outcome, and its answer shows that. -/
structure Step.Attempted (step : Step Waker) (outcome : Option (Except Errno ExitStatus)) :
    Prop where
  safe : ¬ step.reply.Faulted
  outcome?_eq : step.outcome? = some outcome
  shown : Answer.Shows outcome step.reply.answer

/-- An answer that says that somebody else waits for the target already. -/
def Answer.IsBusy : Answer → Prop
  | .refused cause => cause = .EBUSY
  | .returned value _ => value = Syscall.joinAlreadyJoined
  | _ => False

theorem Answer.Shows.ne_faulted {answer : Answer} (shows : Answer.Shows outcome answer)
    (fault : Fault) : answer ≠ .faulted fault := by
  rintro rfl
  cases shows

theorem Answer.Shows.outcome_of_isBusy {answer : Answer} (shows : Answer.Shows outcome answer)
    (hbusy : answer.IsBusy) : outcome = some (.error .EBUSY) := by
  cases shows with
  | refused cause =>
    have hcause : cause = .EBUSY := hbusy
    rw [hcause]
  | busy => rfl
  | killed | exited | unwritten | turnedDown =>
    simp [IsBusy, Syscall.joinAbnormal, Syscall.joinNormal, Syscall.joinNotChild,
      Syscall.joinAlreadyJoined] at hbusy
  | parked | collected => exact hbusy.elim

/-! ## Outcomes -/

theorem Wait.outcomeOf_injective {first second : Except Errno (Option ExitStatus)}
    (hsame : Wait.outcomeOf first = Wait.outcomeOf second) : first = second := by
  match first, second with
  | .ok none, .ok none => rfl
  | .ok (some _), .ok (some _) | .error _, .error _ =>
    cases hsame
    rfl
  | .ok none, .ok (some _) | .ok none, .error _ | .ok (some _), .ok none
  | .ok (some _), .error _ | .error _, .ok none | .error _, .ok (some _) => cases hsame

/-- The outcome of an attempt, as the target's record has it. -/
def Wait.outcomeIn (wait : Wait) (table : Table Waker) : Option (Except Errno ExitStatus) :=
  Wait.outcomeOf (table.joinResult wait.caller wait.target wait.token)

theorem Wait.poll_outcomeIn {table : Table Waker} (sound : table.Sound) (wait : Wait)
    (waker : Waker) :
    ∃ after, (wait.poll waker).Yields table (.ok (wait.outcomeIn table)) after [] := by
  obtain ⟨after, -, hjoin⟩ := Table.join_yields sound wait.caller wait.target wait.token waker
  exact ⟨after, Wait.poll_yields hjoin⟩

theorem Step.outcome?_of_join (sound : step.before.table.Sound)
    (hdemand : step.demand = .join wait waker) :
    step.outcome? = some (wait.outcomeIn step.before.table) := by
  obtain ⟨after, hyields⟩ := wait.poll_outcomeIn sound waker
  obtain ⟨added, -, hrun⟩ := hyields []
  simp only [Step.outcome?, hdemand, hrun]
  rfl

/-- What an attempt does to the table follows from what it finds there. -/
theorem Change.attempts {after : Table Waker} {loads : List Load} {audible : List (Effect Waker)}
    {answer : Answer} (sound : kernel.table.Sound)
    (change : kernel.Change (.join wait waker) after loads audible answer) :
    kernel.table.Attempts wait.caller wait.target wait.token waker
      (kernel.table.joinResult wait.caller wait.target wait.token) after := by
  cases change with
  | unchanged hvoid => cases hvoid
  | polled hattempts hyields =>
    obtain ⟨left, -, hjoin⟩ :=
      Table.join_yields sound wait.caller wait.target wait.token waker
    have hsame := (hyields.unique (Wait.poll_yields hjoin)).1
    rw [Except.ok.injEq] at hsame
    rw [← Wait.outcomeOf_injective hsame]
    exact hattempts

/-! ## Answers -/

/-- A request is a JOIN that wants the code of its child at an address, whether it has just begun or
waits already. -/
inductive Request.JoinsInto (address : Nat) : Request → Prop where
  | begun {call : Syscall} (hkind : SyscallKind.ofNumber? call.number = some .join)
      (haddress : call.secondWord = address) : JoinsInto address (.syscall call)
  | waiting (wait : Wait) : JoinsInto address (.collecting wait address)

/-- How a JOIN tells the status of its child: by a number and, unless its address is null, by the
code in its caller's memory. -/
inductive Syscall.Tells (memory : Memory) (address : Nat) :
    ExitStatus → Int → Option Memory → Prop where
  | killed : Tells memory address .killed joinAbnormal none
  /-- There is no address to write the code to. -/
  | discarded (code : Int32) (hnull : address = 0) :
      Tells memory address (.exited code) joinNormal none
  | stored {code : Int32} {written : Memory} (haddress : address ≠ 0)
      (stores : memory.Stores written address code) :
      Tells memory address (.exited code) joinNormal (some written)
  | unwritten (code : Int32) {written : Memory} (haddress : address ≠ 0)
      (same : memory.SameBut written address 4)
      (hunmapped : ¬ ∀ index < 4, memory.IsMapped (address + index)) :
      Tells memory address (.exited code) joinNotChild (some written)

theorem Syscall.tells_joinAnswer (memory : Memory) (address : Nat) (status : ExitStatus) :
    Tells memory address status (joinAnswer memory address (.ok status)).1
      (joinAnswer memory address (.ok status)).2 := by
  cases status with
  | killed => exact .killed
  | exited code =>
    simp only [joinAnswer]
    split
    · next hnull => exact .discarded code hnull
    next haddress =>
    split
    · next written hwritten => exact .stored haddress (Memory.stores_of_written hwritten)
    · next written cause hunwritten =>
      obtain ⟨same, hunmapped⟩ := Memory.unmapped_of_unwritten hunwritten
      exact .unwritten code haddress same hunmapped

/-- What a poll of a request answers, by the outcome of its attempt to join. -/
inductive Answered (memory : Memory) (entry : Request) :
    Option (Except Errno ExitStatus) → Answer → Prop where
  | parked : Answered memory entry none .pending
  | collected {wait : Wait} (hentry : entry = .join wait) (status : ExitStatus) :
      Answered memory entry (some (.ok status)) (.collected status)
  | refused {wait : Wait} (hentry : entry = .join wait) (cause : Errno) :
      Answered memory entry (some (.error cause)) (.refused cause)
  | returned {address : Nat} (joins : entry.JoinsInto address)
      (result : Except Errno ExitStatus) :
      Answered memory entry (some result)
        (.returned (Syscall.joinAnswer memory address result).1
          (Syscall.joinAnswer memory address result).2)

section Answers

variable {after : Table Waker} {acting : Kernel Waker} {memory : Memory} {entry : Request}
  {answer : Answer}

theorem Answered.shows (answered : Answered memory entry outcome answer) :
    Answer.Shows outcome answer := by
  cases answered with
  | parked => exact .parked
  | collected _ status => exact .collected status
  | refused _ cause => exact .refused cause
  | returned _ result => exact shows_joinAnswer memory _ result

theorem answered_join (memory : Memory) {result : Except Errno (Option ExitStatus)}
    (hyields : (wait.poll waker).Yields acting.table (.ok (Wait.outcomeOf result)) after []) :
    Answered memory (.join wait) (Wait.outcomeOf result)
      (acting.act (wait.poll waker) (settleJoin request wait) (·.forget request)).answer := by
  obtain ⟨effects, -, hact⟩ := act_of_ok (settleJoin request wait) (·.forget request) hyields
  rw [hact]
  match result with
  | .ok none => exact .parked
  | .ok (some status) => exact .collected rfl status
  | .error cause => exact .refused rfl cause

theorem answered_syscall {result : Except Errno (Option ExitStatus)} {address : Nat}
    {action : Action Waker Progress} (joins : entry.JoinsInto address)
    (hyields : action.Yields acting.table (.ok (joinProgress wait address memory result))
      after []) :
    Answered memory entry (Wait.outcomeOf result)
      (acting.act action (settleSyscall request) (·.forget request)).answer := by
  obtain ⟨effects, -, hact⟩ := act_of_ok (settleSyscall request) (·.forget request) hyields
  rw [hact]
  match result with
  | .ok none => exact .parked
  | .ok (some status) => exact .returned joins (.ok status)
  | .error cause => exact .returned joins (.error cause)

end Answers

/-- The answer to a poll that attempts to join is told by what came of it. -/
theorem answered_poll (sound : kernel.table.Sound) {memory : Memory} {used : Waker}
    {entry : Request} (hrequest : kernel.requests[request]? = some entry)
    (hdemand : kernel.demand (.poll request used memory) = .join wait waker) :
    Answered memory entry (wait.outcomeIn kernel.table)
      (kernel.poll request used memory).answer := by
  simp only [demand, hrequest] at hdemand
  simp only [poll, hrequest]
  cases entry with
  | join other =>
    cases hdemand
    obtain ⟨after, hyields⟩ := wait.poll_outcomeIn sound waker
    exact answered_join memory hyields
  | collecting other statusAddress =>
    cases hdemand
    obtain ⟨after, hyields⟩ := wait.poll_outcomeIn sound waker
    exact answered_syscall (.waiting wait) (pollCollecting_progress hyields statusAddress memory)
  | syscall call =>
    obtain ⟨hrunning, hkind, target, htarget, rfl, rfl⟩ := Syscall.demand_join hdemand
    have hstart := start_join hrunning memory hkind
    rw [htarget] at hstart
    obtain ⟨after, hyields⟩ :=
      Wait.poll_outcomeIn sound ⟨call.caller, target, request, false⟩ waker
    have hcollecting := pollCollecting_progress hyields call.secondWord memory
    exact answered_syscall (.begun hkind rfl) (.bind_silent hstart hcollecting)

/-! ## Steps -/

section Steps

variable (sound : step.before.table.Sound) (hdemand : step.demand = .join wait waker)

include sound hdemand

/-- Only a poll of an open request attempts to join, and its answer goes by the outcome. -/
theorem Step.answered :
    ∃ request memory entry, step.call = .poll request waker memory ∧
      step.before.requests[request]? = some entry ∧
      Answered memory entry (wait.outcomeIn step.before.table) step.reply.answer := by
  obtain ⟨kernel, call⟩ := step
  obtain ⟨request, memory, rfl⟩ := call_of_join hdemand
  replace hdemand : kernel.demand (.poll request waker memory) = .join wait waker := hdemand
  cases hrequest : kernel.requests[request]? with
  | none =>
    simp only [Kernel.demand, hrequest] at hdemand
    cases hdemand
  | some entry =>
    exact ⟨request, memory, entry, rfl, hrequest, answered_poll sound hrequest hdemand⟩

/-- A poll of a wait always attempts to join. -/
theorem Step.attempted : step.Attempted (wait.outcomeIn step.before.table) := by
  obtain ⟨_, _, _, -, -, answered⟩ := Step.answered sound hdemand
  exact ⟨fun ⟨fault, hfault⟩ ↦ answered.shows.ne_faulted fault hfault,
    Step.outcome?_of_join sound hdemand, answered.shows⟩

theorem Step.outcome_eq (attempted : step.Attempted outcome) :
    outcome = wait.outcomeIn step.before.table := by
  have houtcome := attempted.outcome?_eq
  rw [Step.outcome?_of_join sound hdemand] at houtcome
  exact (Option.some.inj houtcome).symm

theorem Step.attempts :
    step.before.table.Attempts wait.caller wait.target wait.token waker
      (step.before.table.joinResult wait.caller wait.target wait.token) step.after.table := by
  have change := step.change sound (Step.attempted sound hdemand).safe
  rw [hdemand] at change
  exact change.attempts sound

/-- An attempt that is refused leaves the table alone. -/
theorem Step.table_of_refused {cause : Errno}
    (hrefused : step.before.table.joinResult wait.caller wait.target wait.token = .error cause) :
    step.Attempted (some (.error cause)) ∧ step.after.table = step.before.table := by
  have hattempted := Step.attempted sound hdemand
  have hattempts := Step.attempts sound hdemand
  rw [Wait.outcomeIn, hrefused] at hattempted
  rw [hrefused] at hattempts
  refine ⟨hattempted, ?_⟩
  generalize step.after.table = after at hattempts ⊢
  cases hattempts with
  | stranger | busy => rfl

end Steps

end Lifecycle.Kernel
