import Lifecycle.Proofs.Kernel.Binding
import Lifecycle.Proofs.Kernel.Reissue
import Lifecycle.Proofs.Kernel.Seclusion

/-!
# The parked joiner wins

Once a joiner is parked, whoever else wants to join the target is turned away until the target has
ended and the joiner was polled again. That poll hands out the target's status and takes its record.
Only the end of the caller, a shutdown or the loss of the request come between, provided that the
loader makes no calls.
-/

namespace Lifecycle.Kernel

variable {Waker : Type} {past earlier later sofar : List (Step Waker)} {kernel : Kernel Waker}
  {first step : Step Waker} {wait : Wait} {waker : Waker} {pid : Pid} {status : ExitStatus}

/-! ## Undisturbed waits -/

/-- Whether a process is ended. -/
def Demand.ends (pid : Pid) : Demand Waker → Bool
  | .finish ended _ => ended = pid
  | .nothing | .start _ | .settle .. | .clear | .join .. | .leave _ => false

/-- Whether all records are dropped. -/
def Demand.clears : Demand Waker → Bool
  | .clear => true
  | .nothing | .start _ | .settle .. | .finish .. | .join .. | .leave _ => false

def Call.polls (request : RequestId) : Call Waker → Bool
  | .poll polled _ _ => polled = request
  | .spawn .. | .finishLoad _ | .terminate .. | .shutdown | .openJoin .. | .openSyscall _
  | .abandon _ => false

def Call.drops (request : RequestId) : Call Waker → Bool
  | .abandon dropped => dropped = request
  | .spawn .. | .finishLoad _ | .terminate .. | .shutdown | .openJoin .. | .openSyscall _
  | .poll .. => false

@[simp]
theorem Demand.ends_finish : (Demand.finish pid status : Demand Waker).ends pid = true :=
  decide_eq_true rfl

/-- Since its poll a joiner was left to wait: the caller was not ended, the machine was not shut
down, the request was not dropped, and it was not polled after the target had been ended. -/
structure Parking.Waits (parking : Parking first) (later : List (Step Waker)) : Prop where
  caller_spared : ∀ step ∈ later, step.demand.ends parking.caller = false
  not_cleared : ∀ step ∈ later, step.demand.clears = false
  not_dropped : ∀ step ∈ later, step.call.drops parking.request = false
  not_settled : later.Pairwise fun former next ↦
    former.demand.ends parking.target = true → next.call.polls parking.request = false

/-! ## How a process comes to have exited -/

section Change

variable {demand : Demand Waker} {after : Table Waker} {loads : List Load}
  {audible : List (Effect Waker)} {answer : Answer} {birth : Nat}

/-- Nobody who has exited is ended once more. -/
theorem Change.running_of_finish
    (change : kernel.Change (.finish pid status) after loads audible answer)
    (hborn : kernel.table.birthOf? pid = some birth) :
    kernel.table.phaseOf? pid = some .running := by
  cases change with
  | unchanged hvoid =>
    cases hvoid with
    | finish _ habsent =>
      obtain ⟨phase, hphase⟩ := Table.exists_phaseOf? hborn
      rw [habsent] at hphase
      cases hphase
  | ended hends =>
    cases hends with
    | left hended _ => exact hended.was_running
    | last hended _ => exact hended.was_running

variable (change : kernel.Change demand after loads audible answer)

include change

/-- A process that keeps its record has exited afterwards if it had before or was ended. -/
theorem Change.exited_iff_of_born (sound : kernel.table.Sound)
    (hbefore : kernel.table.birthOf? pid = some birth) (hafter : after.birthOf? pid = some birth)
    (status : ExitStatus) :
    after.phaseOf? pid = some (.exited status) ↔
      kernel.table.phaseOf? pid = some (.exited status) ∨ demand = .finish pid status := by
  constructor
  · intro hexited
    cases change.origin sound hafter hexited with
    | same _ hphase => exact .inl hphase
    | ended hdemand _ _ => exact .inr hdemand
  · obtain ⟨phase, hphase⟩ := Table.exists_phaseOf? hafter
    have horigin := change.origin sound hafter hphase
    rintro (hexited | rfl)
    · cases horigin with
      | same _ hsame => exact hphase.trans (hsame.symm.trans hexited)
      | ended _ _ hrunning =>
        rw [hexited] at hrunning
        cases hrunning
      | born heq _ => exact absurd (sound.birth_lt hbefore) (Nat.not_lt.2 (Nat.le_of_eq heq.symm))
    · have hrunning := change.running_of_finish hbefore
      have hstopped := change.stopped sound hrunning
      cases horigin with
      | same _ hsame =>
        rw [hrunning] at hsame
        exact absurd (hphase.trans hsame.symm) hstopped
      | ended hdemand _ _ =>
        cases hdemand
        exact hphase
      | born => exact absurd hphase hstopped

/-- A poll that parks leaves the loads alone. -/
theorem Change.loads_of_pending (hpending : answer = .pending) : loads = kernel.loads := by
  subst hpending
  cases change with
  | unchanged | ended | cleared | polled | released => rfl
  | inserted _ hplain => exact hplain.elim
  | admitted _ hplain => exact hplain.elim
  | gone _ _ hplain => exact hplain.elim
  | withdrawn _ _ _ hplain => exact hplain.elim

end Change

namespace Parking

variable {parking : Parking first}

/-- How things stand while a joiner waits. -/
structure Waiting (parking : Parking first) (sofar : List (Step Waker)) (kernel : Kernel Waker) :
    Prop where
  bound : parking.Bound kernel.table
  /-- It is not the target that is being loaded. -/
  apart : ∀ load ∈ kernel.loads, load.pid ≠ parking.target
  exited_iff (status : ExitStatus) :
    kernel.table.phaseOf? parking.target = some (.exited status) ↔
      ∃ ender ∈ sofar, ender.demand = .finish parking.target status

theorem Waiting.begin (parking : Parking first) (hrun : Run past first.before)
    (secluded : Secluded (past ++ [first])) (hsafe : ¬ first.reply.Faulted) :
    parking.Waiting [] first.after where
  bound := parking.bound hrun hsafe
  apart := by
    have hloads := (first.change hrun.sound hsafe).loads_of_pending parking.answer_eq
    have hidle : first.before.loads = [] := by
      refine (secluded first (List.mem_append_right _ (List.mem_singleton_self _))).resolve_right ?_
      rw [parking.call_eq]
      exact Bool.false_ne_true
    rw [hloads, hidle]
    nofun
  exited_iff := by
    intro status
    obtain ⟨hrunning, -⟩ := parked_iff.1 (parking.parked hrun.sound hrun.tidy hsafe)
    have htarget : first.after.table.phaseOf? parking.target = some .running := hrunning
    simp [htarget]

section Next

variable (waiting : parking.Waiting sofar step.before) (hrun : Run past step.before)
  (hsafe : ¬ step.reply.Faulted)

include waiting hrun hsafe

theorem Waiting.apart_next : ∀ load ∈ step.after.loads, load.pid ≠ parking.target := by
  have hstacks := (step.change hrun.sound hsafe).stacks
  have hapart := waiting.apart
  generalize step.after.loads = loads at hstacks ⊢
  cases hstacks with
  | same => exact hapart
  | pushed _ hinserted =>
    rw [List.forall_mem_cons]
    exact ⟨(hinserted.ne_of_born waiting.bound.target_born).symm, hapart⟩
  | popped _ hpopped =>
    rw [hpopped, List.forall_mem_cons] at hapart
    exact hapart.2

theorem Waiting.exited_iff_next (hbound : parking.Bound step.after.table) (status : ExitStatus) :
    step.after.table.phaseOf? parking.target = some (.exited status) ↔
      ∃ ender ∈ sofar ++ [step], ender.demand = .finish parking.target status := by
  have change := step.change hrun.sound hsafe
  rw [change.exited_iff_of_born hrun.sound waiting.bound.target_born hbound.target_born,
    waiting.exited_iff]
  simp [or_and_right, exists_or]

/-- What would part the wait from its processes does not occur while the joiner is left to wait. -/
theorem Waiting.not_severed {rest : List (Step Waker)} (secluded : Secluded past)
    (waits : parking.Waits (sofar ++ step :: rest)) : ¬ parking.Severed step := by
  have hmem : step ∈ sofar ++ step :: rest := List.mem_append_cons_self
  have hspared := waits.caller_spared step hmem
  intro severed
  cases severed with
  | cleared hdemand _ =>
    have hkept := waits.not_cleared step hmem
    rw [hdemand] at hkept
    cases hkept
  | last hdemand hrunning hstops =>
    rw [hdemand, Demand.ends, decide_eq_false_iff_not] at hspared
    have hliving := waiting.bound.caller_running hrun.sound
    rw [hrun.not_stops_of_secluded secluded hsafe hdemand hrunning hliving (Ne.symm hspared)]
      at hstops
    cases hstops
  | callerEnded hdemand =>
    rw [hdemand, Demand.ends_finish] at hspared
    cases hspared
  | withdrawn hdemand hpid =>
    obtain ⟨-, loads, hloads⟩ := call_of_settle hdemand
    exact waiting.apart _ (hloads ▸ List.mem_cons_self) hpid
  | collected hdemand htoken hexited =>
    obtain ⟨ender, hender, hended⟩ := (waiting.exited_iff _).1 hexited
    have hunpolled := (List.pairwise_append.1 waits.not_settled).2.2 ender hender step
      List.mem_cons_self (by rw [hended, Demand.ends_finish])
    obtain ⟨request, memory, hcall⟩ := call_of_join hdemand
    rw [Step.demand, hcall] at hdemand
    rw [hcall, ← htoken, hrun.tidy.token_of_poll hdemand] at hunpolled
    simp [Call.polls] at hunpolled
  | dropped hcall =>
    have hkept := waits.not_dropped step hmem
    rw [hcall] at hkept
    simp [Call.drops] at hkept

theorem Waiting.next {rest : List (Step Waker)} (secluded : Secluded past)
    (waits : parking.Waits (sofar ++ step :: rest)) :
    parking.Waiting (sofar ++ [step]) step.after := by
  have hbound := (waiting.bound.next hrun hsafe).resolve_right
    (waiting.not_severed hrun hsafe secluded waits)
  exact ⟨hbound, waiting.apart_next hrun hsafe, waiting.exited_iff_next hrun hsafe hbound⟩

end Next

/-- As long as the joiner is left to wait it stays bound to its target. -/
theorem Waits.waiting (waits : parking.Waits later)
    (hrun : Run (earlier ++ first :: later) kernel)
    (secluded : Secluded (earlier ++ first :: later)) : parking.Waiting later kernel := by
  refine hrun.since (motive := parking.Waiting) ?_ ?_
  · obtain ⟨hbefore, hsafe⟩ := hrun.of_append
    rw [List.append_cons] at secluded
    exact .begin parking hbefore secluded.of_append hsafe
  · rintro sofar step rest rfl hbefore hsafe waiting
    rw [← List.cons_append, ← List.append_assoc] at secluded
    exact waiting.next hbefore hsafe secluded.of_append waits

/-! ## The contest -/

/-- What a call comes to that is made after a joiner was parked, if it is about the target. -/
structure ContestKept (parking : Parking first) (later : List (Step Waker)) (step : Step Waker) :
    Prop where
  /-- While the joiner waits every other join is refused, and changes nothing. -/
  rival_refused {wait : Wait} {waker : Waker} (waits : parking.Waits later)
    (hdemand : step.demand = .join wait waker) (htarget : wait.target = parking.target)
    (hrival : wait.token ≠ parking.request) :
    step.Attempted (some (.error (if wait.caller = parking.caller then .EBUSY else .ECHILD))) ∧
      step.after.table = step.before.table
  /-- Once the target was ended, the joiner collects the status and takes the record. -/
  collects {ender : Step Waker} {status : ExitStatus} {waker : Waker} {memory : Memory}
    (waits : parking.Waits later) (hender : ender ∈ later)
    (hended : ender.demand = .finish parking.target status)
    (hcall : step.call = .poll parking.request waker memory) :
    step.Attempted (some (.ok status)) ∧ step.after.table.record? parking.target = none ∧
      ¬ step.after.table.HasChild parking.caller parking.target
  /-- From then on every join is refused, until the target's id is handed out again. -/
  refused_since {sofar rest : List (Step Waker)} {ender settling : Step Waker}
    {status : ExitStatus} {used waker : Waker} {memory : Memory} {wait : Wait}
    (hlater : later = sofar ++ settling :: rest) (waits : parking.Waits sofar)
    (hender : ender ∈ sofar) (hended : ender.demand = .finish parking.target status)
    (hcall : settling.call = .poll parking.request used memory)
    (huntaken : ∀ next ∈ rest, ¬ next.TakesIn parking.target)
    (hdemand : step.demand = .join wait waker) (htarget : wait.target = parking.target) :
    step.Attempted (some (.error .ECHILD)) ∧ step.after.table = step.before.table

/-- The joiner's own poll, once its target has ended. -/
theorem Waiting.poll_settles {ender : Step Waker} {memory : Memory}
    (waiting : parking.Waiting later step.before)
    (hrun : Run (earlier ++ first :: later) step.before) (hender : ender ∈ later)
    (hended : ender.demand = .finish parking.target status)
    (hcall : step.call = .poll parking.request waker memory) :
    step.Attempted (some (.ok status)) ∧ step.after.table.record? parking.target = none := by
  have hexited := (waiting.exited_iff status).2 ⟨ender, hender, hended⟩
  have hopen : step.before.requests[parking.request]? ≠ none := by
    obtain ⟨entry, hentry, -⟩ := Option.bind_eq_some_iff.1 (waiting.bound.waitOf?_eq hrun)
    rw [hentry]
    exact Option.some_ne_none entry
  obtain ⟨parked, hdemand⟩ := parking.demand_of_poll hrun hopen hcall
  obtain ⟨hattempted, -, hremoved⟩ := waiting.bound.poll_exited hrun hdemand rfl hexited
  refine ⟨hattempted, ?_⟩
  rw [hremoved.record?_eq, if_pos rfl]

end Parking

/-- Whoever has no record is nobody's child. -/
theorem Step.refused_of_absent (sound : step.before.table.Sound)
    (habsent : step.before.table.record? wait.target = none)
    (hdemand : step.demand = .join wait waker) :
    step.Attempted (some (.error .ECHILD)) ∧ step.after.table = step.before.table := by
  refine Step.table_of_refused sound hdemand (Table.joinResult_eq_stranger_iff.2 ?_)
  rw [Table.parentOf?, habsent]
  exact (Option.some_ne_none _).symm

/-- If the loader makes no calls, a parked joiner prevails over its rivals. -/
theorem Run.contestKept (hrun : Run (earlier ++ first :: later) step.before)
    (secluded : Secluded (earlier ++ first :: later)) (parking : Parking first) :
    parking.ContestKept later step := by
  constructor
  case rival_refused =>
    intro wait waker waits hdemand htarget hrival
    have bound := (waits.waiting hrun secluded).bound
    exact Step.table_of_refused hrun.sound hdemand (bound.refused_of_other hrival htarget)
  case collects =>
    intro ender status waker memory waits hender hended hcall
    have waiting := waits.waiting hrun secluded
    obtain ⟨hattempted, habsent⟩ := waiting.poll_settles hrun hender hended hcall
    have sound := (step.change hrun.sound hattempted.safe).sound hrun.sound
    refine ⟨hattempted, habsent, ?_⟩
    rw [sound.hasChild_iff_parentOf?, Table.parentOf?, habsent]
    exact (Option.some_ne_none _).symm
  case refused_since =>
    rintro sofar rest ender settling status used waker memory wait rfl waits hender hended hcall
      huntaken hdemand htarget
    rw [← List.cons_append, ← List.append_assoc] at hrun secluded
    have hbefore := hrun.of_append.1
    have waiting := waits.waiting hbefore secluded.of_append
    obtain ⟨-, habsent⟩ := waiting.poll_settles hbefore hender hended hcall
    refine Step.refused_of_absent hrun.sound ?_ hdemand
    rw [htarget]
    exact hrun.absent_of_untaken huntaken habsent

/-- The root waits for its child twice at a time, and the child is killed. -/
def rivals : List (Call Nat) :=
  family.take 6 ++ [.openJoin 1 2, .poll 1 8 blank, .terminate 2 .killed, .openJoin 1 2]

/-- The child has ended, and a rival of the first wait is still turned away. -/
theorem contestKept_rivals :
    let later := (initial.reach (family.take 6)).steps (rivals.drop 6)
    let step : Step Nat := ⟨initial.reach rivals, .poll 2 9 blank⟩
    familyParking.Waits later ∧ familyParking.ContestKept later step ∧
      step.Attempted (some (.error .EBUSY)) := by
  intro later step
  have hrun : Run (initial.steps (family.take 5) ++
      ⟨initial.reach (family.take 5), .poll 0 7 blank⟩ :: later) (initial.reach rivals) :=
    run_of_calls rivals (by decide +kernel)
  have waits : familyParking.Waits later :=
    ⟨by decide +kernel, by decide +kernel, by decide +kernel, by decide +kernel⟩
  have kept : familyParking.ContestKept later step :=
    Run.contestKept hrun (by decide +kernel) familyParking
  have hdemand : step.demand = .join ⟨1, 2, 2, false⟩ 9 := rfl
  exact ⟨waits, kept, (kept.rival_refused waits hdemand rfl (by decide)).1⟩

end Lifecycle.Kernel
