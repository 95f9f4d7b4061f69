import Lifecycle.Proofs.Kernel.Attempts
import Lifecycle.Proofs.Kernel.Delivery

/-!
# Exit statuses in a run

The poll that collects the status of a process answers with it, as a wait does or as a JOIN tells
it, and no poll of a wait or of a JOIN speaks of the end of a process that it has not collected. So
the exit statuses that callers get are those handed out: each at most once, the one its process was
ended with, and lost only with the record.
-/

namespace Lifecycle.Kernel

variable {Waker : Type} {past : List (Step Waker)} {kernel : Kernel Waker} {step : Step Waker}
  {request : RequestId} {entry : Request} {wait : Wait} {waker : Waker} {memory : Memory}
  {birth address : Nat} {status : ExitStatus} {value : Int} {written : Option Memory}

/-! ## What callers get -/

/-- The answer to a poll hands a status to its caller. -/
inductive Step.Hands (step : Step Waker) (status : ExitStatus) : Prop where
  | collected {request : RequestId} {waker : Waker} {memory : Memory} {wait : Wait}
      (hcall : step.call = .poll request waker memory)
      (hrequest : step.before.requests[request]? = some (.join wait))
      (hanswer : step.reply.answer = .collected status)
  | told {request : RequestId} {waker : Waker} {memory : Memory} {entry : Request} {address : Nat}
      {value : Int} {written : Option Memory} (hcall : step.call = .poll request waker memory)
      (hrequest : step.before.requests[request]? = some entry) (joins : entry.JoinsInto address)
      (hanswer : step.reply.answer = .returned value written)
      (tells : Syscall.Tells memory address status value written)

/-- A JOIN that answers so speaks of the end of a child, by its number or by what it has written. -/
def Syscall.Reports (value : Int) (written : Option Memory) : Prop :=
  value = joinNormal ∨ value = joinAbnormal ∨ written ≠ none

theorem Syscall.not_reports_none (hnormal : value ≠ joinNormal) (habnormal : value ≠ joinAbnormal) :
    ¬ Reports value none := by
  rintro (heq | heq | hwritten)
  · exact hnormal heq
  · exact habnormal heq
  · exact hwritten rfl

theorem Answered.hands (answered : Answered memory entry (some (.ok status)) step.reply.answer)
    (hcall : step.call = .poll request waker memory)
    (hrequest : step.before.requests[request]? = some entry) : step.Hands status := by
  generalize hanswer : step.reply.answer = answer at answered
  cases answered with
  | collected hentry _ => exact .collected hcall (hentry ▸ hrequest) hanswer
  | returned joins _ =>
    exact .told hcall hrequest joins hanswer (Syscall.tells_joinAnswer memory _ status)

theorem Answer.Shows.ok_of_reports {outcome : Option (Except Errno ExitStatus)}
    (shows : Answer.Shows outcome (.returned value written))
    (hreports : Syscall.Reports value written) : ∃ status, outcome = some (.ok status) := by
  cases shows with
  | killed => exact ⟨.killed, rfl⟩
  | exited code _ | unwritten code _ => exact ⟨.exited code, rfl⟩
  | busy | turnedDown =>
    exact absurd hreports (Syscall.not_reports_none (by decide) (by decide))

/-- A poll of a JOIN attempts to join, unless the caller does not run or no process is named: then
the JOIN returns at once, and does not speak of a child. -/
theorem Request.JoinsInto.demand_or_returned (joins : entry.JoinsInto address)
    (hrequest : kernel.requests[request]? = some entry) (waker : Waker) (memory : Memory) :
    (∃ wait, kernel.demand (.poll request waker memory) = .join wait waker) ∨
      ∃ value, (kernel.perform (.poll request waker memory)).answer = .returned value none ∧
        ¬ Syscall.Reports value none := by
  simp only [Kernel.demand, hrequest]
  cases joins with
  | waiting wait => exact .inl ⟨wait, rfl⟩
  | @begun call hkind haddress =>
    by_cases hrunning : kernel.table.IsRunning call.caller
    · have hstart := start_join hrunning memory hkind
      simp only [Syscall.demand, hrunning, hkind]
      cases htarget : Pid.ofUser? (Word.lowCode call.firstWord) with
      | some target => exact .inl ⟨_, rfl⟩
      | none =>
        rw [htarget] at hstart
        obtain ⟨effects, -, hperform⟩ :=
          perform_returned request call waker memory hstart hrequest
        exact .inr ⟨_, congrArg Reply.answer hperform,
          Syscall.not_reports_none (by decide) (by decide)⟩
    · obtain ⟨effects, -, hperform⟩ :=
        perform_returned request call waker memory (start_stopped hrunning memory) hrequest
      exact .inr ⟨_, congrArg Reply.answer hperform,
        Syscall.not_reports_none (by decide) (by decide)⟩

section Sound

variable (sound : step.before.table.Sound)

include sound

theorem Step.delivery?_iff (hdemand : step.demand = .join wait waker) :
    step.delivery? = some (birth, status) ↔
      wait.outcomeIn step.before.table = some (.ok status) ∧
        step.before.table.birthOf? wait.target = some birth := by
  obtain ⟨after, -, hjoin⟩ :=
    Table.join_yields sound wait.caller wait.target wait.token waker
  rw [Wait.outcomeIn]
  generalize step.before.table.joinResult wait.caller wait.target wait.token = result at hjoin ⊢
  rw [delivery?_of_yields hdemand (Wait.poll_yields hjoin)]
  cases result with
  | error cause => simp [Wait.outcomeOf]
  | ok collected =>
    cases collected with
    | none => simp [Wait.outcomeOf]
    | some last => simp [Wait.outcomeOf, and_comm]

/-- What is handed out is in the answer. -/
theorem Step.hands_of_delivery? (hdelivery : step.delivery? = some (birth, status)) :
    step.Hands status := by
  by_cases hjoin : ∃ wait waker, step.demand = .join wait waker
  · obtain ⟨wait, waker, hdemand⟩ := hjoin
    obtain ⟨houtcome, -⟩ := (Step.delivery?_iff sound hdemand).1 hdelivery
    obtain ⟨request, memory, entry, hcall, hrequest, answered⟩ := Step.answered sound hdemand
    rw [houtcome] at answered
    exact answered.hands hcall hrequest
  · rw [delivery?_eq_none fun wait waker hdemand ↦ hjoin ⟨wait, waker, hdemand⟩] at hdelivery
    cases hdelivery

/-- An attempt that collects a status hands it out. -/
theorem Step.delivery?_of_outcome (hdemand : step.demand = .join wait waker)
    (houtcome : wait.outcomeIn step.before.table = some (.ok status)) :
    ∃ birth, step.delivery? = some (birth, status) := by
  have hresult : step.before.table.joinResult wait.caller wait.target wait.token =
      .ok (some status) := Wait.outcomeOf_injective houtcome
  have hattempts := Step.attempts sound hdemand
  rw [hresult] at hattempts
  generalize step.after.table = after at hattempts
  cases hattempts with
  | collected _ hexited _ _ =>
    obtain ⟨birth, hbirth⟩ := Table.exists_birthOf? hexited
    exact ⟨birth, (Step.delivery?_iff sound hdemand).2 ⟨houtcome, hbirth⟩⟩

/-- A wait that answers a status has collected it. -/
theorem Step.delivery?_of_collected (hsafe : ¬ step.reply.Faulted)
    (hanswer : step.reply.answer = .collected status) :
    ∃ birth, step.delivery? = some (birth, status) := by
  by_cases hjoin : ∃ wait waker, step.demand = .join wait waker
  · obtain ⟨wait, waker, hdemand⟩ := hjoin
    have shows := (Step.attempted sound hdemand).shown
    rw [hanswer] at shows
    generalize houtcome : wait.outcomeIn step.before.table = outcome at shows
    cases shows
    exact Step.delivery?_of_outcome sound hdemand houtcome
  · have hplain := (step.change sound hsafe).isPlain fun wait waker hdemand ↦
      hjoin ⟨wait, waker, hdemand⟩
    rw [hanswer] at hplain
    exact hplain.elim

/-- A JOIN that speaks of a child has collected it. -/
theorem Step.delivery?_of_told (hcall : step.call = .poll request waker memory)
    (hrequest : step.before.requests[request]? = some entry) (joins : entry.JoinsInto address)
    (hanswer : step.reply.answer = .returned value written)
    (hreports : Syscall.Reports value written) :
    ∃ birth status, step.delivery? = some (birth, status) := by
  obtain ⟨kernel, call⟩ := step
  subst hcall
  obtain ⟨wait, hdemand⟩ | ⟨other, hother, hsilent⟩ :=
    joins.demand_or_returned hrequest waker memory
  · have shows := (Step.attempted sound hdemand).shown
    rw [hanswer] at shows
    obtain ⟨status, houtcome⟩ := shows.ok_of_reports hreports
    obtain ⟨birth, hdelivery⟩ := Step.delivery?_of_outcome sound hdemand houtcome
    exact ⟨birth, status, hdelivery⟩
  · cases hother.symm.trans hanswer
    exact absurd hreports hsilent

end Sound

/-! ## Exit statuses in a run -/

/-- Exit statuses are handed out as they should be. -/
structure StatusesKept (past : List (Step Waker)) : Prop where
  /-- No two steps hand out the status of one process. -/
  delivered_once : ((past.filterMap Step.delivery?).map (·.1)).Nodup
  /-- No two steps end one process. -/
  ended_once : ((past.filterMap Step.ending?).map (·.1)).Nodup
  /-- A status that is handed out is the one that the process was ended with before. -/
  delivered_ended {earlier later : List (Step Waker)} {step : Step Waker} {birth : Nat}
    {status : ExitStatus} (hpast : past = earlier ++ step :: later)
    (hdelivery : step.delivery? = some (birth, status)) :
    ∃ former ∈ earlier, former.ending? = some (birth, status)
  /-- A status that is handed out is in the answer to the poll. -/
  delivered_handed {step : Step Waker} {birth : Nat} {status : ExitStatus} (hmem : step ∈ past)
    (hdelivery : step.delivery? = some (birth, status)) : step.Hands status
  /-- The statuses that waits answer are all among those handed out. -/
  collected_delivered {step : Step Waker} {status : ExitStatus} (hmem : step ∈ past)
    (hanswer : step.reply.answer = .collected status) :
    ∃ birth, step.delivery? = some (birth, status)
  /-- So are those that JOINs tell. -/
  told_delivered {step : Step Waker} {request : RequestId} {waker : Waker} {memory : Memory}
    {entry : Request} {address : Nat} {value : Int} {written : Option Memory} (hmem : step ∈ past)
    (hcall : step.call = .poll request waker memory)
    (hrequest : step.before.requests[request]? = some entry) (joins : entry.JoinsInto address)
    (hanswer : step.reply.answer = .returned value written)
    (hreports : Syscall.Reports value written) :
    ∃ birth status, step.delivery? = some (birth, status)
  /-- A record leaves the table in the ways listed only; one that stays keeps its birth, and its
  status if the process has exited. -/
  kept {step : Step Waker} {pid : Pid} {birth : Nat} {phase : Phase} (hmem : step ∈ past)
    (hbirth : step.before.table.birthOf? pid = some birth)
    (hphase : step.before.table.phaseOf? pid = some phase) :
    step.Drops pid ∨ Stays step pid birth phase
  /-- While its parent lives, an exited process keeps its record until the parent has collected
  the status, unless its own load is given up. -/
  unlost {step : Step Waker} {pid parent : Pid} {birth : Nat} {status : ExitStatus}
    (hmem : step ∈ past) (hbirth : step.before.table.birthOf? pid = some birth)
    (hexited : step.before.table.phaseOf? pid = some (.exited status))
    (hparent : step.before.table.parentOf? pid = some parent)
    (hliving : step.after.table.phaseOf? parent = some .running) :
    (step.after.table.birthOf? pid = some birth ∧
      step.after.table.phaseOf? pid = some (.exited status)) ∨
    (step.delivery? = some (birth, status) ∧
      ∃ wait waker, step.demand = .join wait waker ∧ wait.caller = parent) ∨
    ∃ load cause, step.demand = .settle load (.error cause) ∧ load.pid = pid
  /-- Processes with records at the same time have different births. -/
  distinct {step : Step Waker} {pid other : Pid} {birth : Nat} (hmem : step ∈ past)
    (hbirth : step.before.table.birthOf? pid = some birth)
    (hsame : step.before.table.birthOf? other = some birth) : pid = other
  /-- The birth of a new record is one that no record had before. -/
  newborn {earlier later : List (Step Waker)} {step : Step Waker} {pid : Pid} {birth : Nat}
    (hpast : past = earlier ++ step :: later)
    (hbirth : step.after.table.birthOf? pid = some birth) :
    step.before.table.birthOf? pid = some birth ∨
      ∀ former ∈ earlier ++ [step], ∀ other, former.before.table.birthOf? other ≠ some birth

/-- Every run hands exit statuses out as it should. -/
theorem Run.statusesKept (hrun : Run past kernel) : StatusesKept past := by
  constructor
  case delivered_once => exact hrun.delivered_nodup
  case ended_once => exact hrun.ended_nodup
  case delivered_ended =>
    rintro earlier later step birth status rfl hdelivery
    obtain ⟨hbefore, hsafe⟩ := hrun.of_append
    obtain ⟨pid, hexited, hbirth, -⟩ :=
      delivery?_eq_some (change_of_safe hbefore.sound hsafe) hdelivery
    exact hbefore.ledger.exited_ended hbirth hexited
  case delivered_handed =>
    intro step birth status hmem
    exact Step.hands_of_delivery? (hrun.of_mem hmem).1
  case collected_delivered =>
    intro step status hmem hanswer
    obtain ⟨earlier, later, rfl⟩ := List.append_of_mem hmem
    obtain ⟨hbefore, hsafe⟩ := hrun.of_append
    exact Step.delivery?_of_collected hbefore.sound hsafe hanswer
  case told_delivered =>
    intro step request waker memory entry address value written hmem
    exact Step.delivery?_of_told (hrun.of_mem hmem).1
  case kept =>
    intro step pid birth phase hmem hbirth hphase
    obtain ⟨sound, change⟩ := hrun.of_mem hmem
    exact fate sound hbirth hphase change
  case unlost =>
    intro step pid parent birth status hmem
    obtain ⟨sound, change⟩ := hrun.of_mem hmem
    exact unlost_of_fate sound change
  case distinct =>
    intro step pid other birth hmem
    exact (hrun.of_mem hmem).1.birth_injective
  case newborn =>
    rintro earlier later step pid birth rfl hbirth
    exact hrun.newborn hbirth

/-- The root of the family collects the status of its child, which is the second process born. -/
theorem statusesKept_family :
    (initial.steps family).filterMap Step.delivery? = [(1, .killed)] ∧
      StatusesKept (initial.steps family) := by
  have hrun : Run (initial.steps family) (initial.reach family) :=
    run_of_calls family (by decide +kernel)
  exact ⟨by decide +kernel, hrun.statusesKept⟩

end Lifecycle.Kernel
