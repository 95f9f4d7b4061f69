import Lifecycle.Proofs.Kernel.Admission
import Lifecycle.Proofs.Kernel.Users

/-!
# Whether the machine stops

When nobody runs any more the table is empty, and the machine has stopped if it was a termination
or a shutdown that ended the last process. If the last process is one whose load failed, nobody
looks whether others are left, and the machine goes on with nothing to run.
-/

namespace Lifecycle

variable {Waker : Type}

/-- Everybody who has exited has a parent that runs. -/
theorem Table.Sound.size_of_idle {table : Table Waker} (sound : table.Sound)
    (hidle : table.runningPids = ∅) : table.size = 0 := by
  have hstopped (pid : Pid) : table.phaseOf? pid ≠ some .running := by
    intro hrunning
    have hmem := Table.mem_runningPids.2 hrunning
    rw [hidle] at hmem
    exact Finset.notMem_empty pid hmem
  apply Std.ExtTreeMap.eq_empty_iff_size_eq_zero.1
  apply Std.ExtTreeMap.eq_empty_iff_forall_not_mem.2
  intro pid hmem
  rw [Std.ExtTreeMap.mem_iff_isSome_getElem?] at hmem
  obtain ⟨record, hrecord⟩ := Option.isSome_iff_exists.1 hmem
  have hphase := Table.phaseOf?_of_record? hrecord
  cases hcase : record.phase with
  | running => exact hstopped pid (hcase ▸ hphase)
  | exited status =>
    rw [hcase] at hphase
    obtain ⟨parent, hparent⟩ := Option.ne_none_iff_exists'.1 (sound.exited_parent hphase)
    exact hstopped parent (sound.parent_running hparent)

namespace Kernel

variable {past earlier later : List (Step Waker)} {kernel : Kernel Waker} {step : Step Waker}
  {among : Nat → Prop}

/-- Whether a load that failed takes away the last process that runs. -/
def Step.WithdrawsLast (step : Step Waker) : Prop :=
  ∃ load cause, step.demand = .settle load (.error cause) ∧
    step.before.table.phaseOf? load.pid = some .running ∧ step.after.table.runningPids = ∅

/-- The machine stopped, and none of the processes in question has ended since. -/
def StoppedSince (among : Nat → Prop) (past : List (Step Waker)) : Prop :=
  ∃ earlier step later, past = earlier ++ step :: later ∧ step.stops = true ∧
    ∀ next ∈ later, ∀ birth status, next.ending? = some (birth, status) → ¬ among birth

/-- The last process that ran was withdrawn when the machine had not stopped since the processes in
question ended, and nothing has stopped it since. -/
def LeftIdle (among : Nat → Prop) (past : List (Step Waker)) : Prop :=
  ∃ earlier step later, past = earlier ++ step :: later ∧ step.WithdrawsLast ∧
    ¬ StoppedSince among earlier ∧ ∀ next ∈ later, next.stops = false

theorem StoppedSince.append (hstopped : StoppedSince among past)
    (hquiet : ∀ next ∈ later, next.ending? = none) : StoppedSince among (past ++ later) := by
  obtain ⟨earlier, step, between, rfl, hstops, hnone⟩ := hstopped
  refine ⟨earlier, step, between ++ later, by simp, hstops, ?_⟩
  intro next hmem birth status hending
  obtain hmem | hmem := List.mem_append.1 hmem
  · exact hnone next hmem birth status hending
  · rw [hquiet next hmem] at hending
    cases hending

theorem StoppedSince.of_stops (among : Nat → Prop) (hstops : step.stops = true)
    (hquiet : ∀ next ∈ later, next.ending? = none) :
    StoppedSince among (earlier ++ step :: later) := by
  refine ⟨earlier, step, later, rfl, hstops, ?_⟩
  intro next hmem birth status hending
  rw [hquiet next hmem] at hending
  cases hending

theorem ending?_of_idle (hidle : step.before.table.runningPids = ∅) : step.ending? = none := by
  rw [Option.eq_none_iff_forall_ne_some]
  rintro ⟨birth, status⟩ hending
  obtain ⟨pid, -, hrunning, -⟩ := ending?_eq_some hending
  have hmem := Table.mem_runningPids.2 hrunning
  rw [hidle] at hmem
  exact Finset.notMem_empty pid hmem

theorem Step.WithdrawsLast.ending?_eq (hlast : step.WithdrawsLast) : step.ending? = none := by
  obtain ⟨load, cause, hdemand, -⟩ := hlast
  rw [Step.ending?, hdemand]

/-- The step that leaves nobody running stops the machine, or it withdraws the last process. -/
theorem stops_or_withdrawsLast
    (htally : Tally step.demand step.before.table step.after.table step.stops)
    (hadd : step.after.table.running + miscounted (past ++ [step]) =
      step.after.table.runningPids.card) (hbusy : step.before.table.runningPids ≠ ∅)
    (hidle : step.after.table.runningPids = ∅) : step.stops = true ∨ step.WithdrawsLast := by
  rw [hidle, Finset.card_empty] at hadd
  cases htally with
  | kept _ _ _ hsame =>
    rw [hidle] at hsame
    exact absurd hsame.symm hbusy
  | gained _ _ _ hcard =>
    rw [hidle] at hcard
    cases hcard
  | lost _ _ hrunning _ _ hwhy =>
    obtain hleft | ⟨load, cause, hdemand, rfl⟩ := hwhy
    · omega
    · exact .inr ⟨load, cause, hdemand, hrunning, hidle⟩
  | miscounted _ _ _ hsame =>
    rw [hidle] at hsame
    exact absurd hsame.symm hbusy
  | stopped hstops => exact .inl hstops

/-- If somebody has run and nobody runs now, there was a step with which that began, and nobody has
ended since. -/
theorem Run.went_idle (hrun : Run past kernel) (hidle : kernel.table.runningPids = ∅)
    (hbusy : ∃ step ∈ past, step.after.table.runningPids ≠ ∅) :
    ∃ earlier step later, past = earlier ++ step :: later ∧
      (step.stops = true ∨ step.WithdrawsLast) ∧ ∀ next ∈ later, next.ending? = none := by
  induction hrun with
  | start =>
    obtain ⟨step, hmem, -⟩ := hbusy
    cases hmem
  | @step past kernel hrun call hsafe ih =>
    let last : Step Waker := ⟨kernel, call⟩
    by_cases hbefore : kernel.table.runningPids = ∅
    · have hpast : ∃ step ∈ past, step.after.table.runningPids ≠ ∅ := by
        obtain ⟨step, hmem, hstep⟩ := hbusy
        obtain hmem | hlast := List.mem_append.1 hmem
        · exact ⟨step, hmem, hstep⟩
        · rw [List.mem_singleton.1 hlast] at hstep
          exact absurd hidle hstep
      obtain ⟨earlier, step, later, rfl, hstep, hquiet⟩ := ih hbefore hpast
      refine ⟨earlier, step, later ++ [last], by simp [last], hstep, ?_⟩
      rw [List.forall_mem_append, List.forall_mem_singleton]
      exact ⟨hquiet, ending?_of_idle hbefore⟩
    · have hadd := (hrun.step call hsafe).running_add
      have hwhy := stops_or_withdrawsLast (Step.tally last hrun.sound hsafe) hadd hbefore hidle
      exact ⟨past, last, [], rfl, hwhy, nofun⟩

/-! ## Stops in a run -/

/-- What has come of the machine when nobody runs any more. The processes in question may be all, or
those that were admitted. -/
structure StopKept (past : List (Step Waker)) (kernel : Kernel Waker) : Prop where
  vacant (hidle : kernel.table.runningPids = ∅) : kernel.table.size = 0
  /-- Once somebody was admitted, the machine has stopped since, unless it was left idle. -/
  stopped_iff (among : Nat → Prop) (hidle : kernel.table.runningPids = ∅)
    (hadmitted : ∃ step ∈ past, ∃ pid path entry size,
      .admitted pid path entry size ∈ step.reply.effects) :
    StoppedSince among past ↔ ¬ LeftIdle among past

/-- A process that was admitted has run. -/
theorem Run.busy_of_admitted (hrun : Run past kernel) (hmem : step ∈ past) {pid : Pid}
    {path : String} {entry : Entry} {size : Nat}
    (hadmitted : .admitted pid path entry size ∈ step.reply.effects) :
    ∃ step ∈ past, step.after.table.runningPids ≠ ∅ := by
  have haudible : .admitted pid path entry size ∈ step.reply.audible :=
    List.mem_filter.2 ⟨hadmitted, rfl⟩
  obtain ⟨load, hdemand, -⟩ := (hrun.of_mem hmem).2.of_admitted haudible
  obtain ⟨admission, -⟩ := hrun.exists_admission hmem hdemand
  obtain ⟨name, hinserted⟩ := (admission.run_before hrun).1.exists_inserted admission.loading.begins
  refine ⟨admission.begun, admission.begun_mem, fun hidle ↦ ?_⟩
  have hcard := hinserted.card_runningPids
  rw [hidle] at hcard
  cases hcard

/-- No load stops the machine with its end. -/
theorem Change.any_isStop_of_settle {load : Load} {outcome : Except LoadFailure Entry}
    {after : Table Waker} {loads : List Load} {audible : List (Effect Waker)} {answer : Answer}
    (change : kernel.Change (.settle load outcome) after loads audible answer) :
    audible.any Effect.isStop = false := by
  cases change with
  | unchanged hvoid => cases hvoid
  | admitted | gone => rfl
  | withdrawn => exact Effect.any_isStop_wakes _ _

theorem Run.not_stops_of_withdrawsLast (hrun : Run past kernel) (hmem : step ∈ past)
    (hlast : step.WithdrawsLast) : step.stops = false := by
  obtain ⟨load, cause, hdemand, -⟩ := hlast
  have change := (hrun.of_mem hmem).2
  rw [hdemand] at change
  rw [step.stops_eq]
  exact change.any_isStop_of_settle

theorem Run.not_leftIdle (hrun : Run past kernel) (hstopped : StoppedSince among past) :
    ¬ LeftIdle among past := by
  rintro ⟨earlier, last, later, rfl, hlast, hnot, hgoes⟩
  obtain ⟨before, step, since, hpast, hstops, hquiet⟩ := hstopped
  obtain hlt | heq | hlt := Nat.lt_trichotomy earlier.length before.length
  · -- the stop comes after the withdrawal
    obtain ⟨between, -, rfl⟩ := exists_between hpast hlt
    rw [hgoes step List.mem_append_cons_self] at hstops
    cases hstops
  · obtain ⟨-, hsame⟩ := List.append_inj hpast heq
    have hmem : last ∈ earlier ++ last :: later := List.mem_append_cons_self
    rw [← (List.cons.inj hsame).1, hrun.not_stops_of_withdrawsLast hmem hlast] at hstops
    cases hstops
  · -- the stop comes before the withdrawal
    obtain ⟨between, rfl, rfl⟩ := exists_between hpast.symm hlt
    refine hnot ⟨before, step, between, rfl, hstops, fun next hmem ↦ ?_⟩
    exact hquiet next (List.mem_append_left _ hmem)

theorem Run.stoppedSince (hrun : Run past kernel) (hidle : kernel.table.runningPids = ∅)
    (hbusy : ∃ step ∈ past, step.after.table.runningPids ≠ ∅) (hnot : ¬ LeftIdle among past) :
    StoppedSince among past := by
  obtain ⟨earlier, step, later, rfl, hstops | hlast, hquiet⟩ := hrun.went_idle hidle hbusy
  · exact .of_stops among hstops hquiet
  by_cases hgoes : ∀ next ∈ later, next.stops = false
  · have hstopped : StoppedSince among earlier :=
      of_not_not fun h ↦ hnot ⟨earlier, step, later, rfl, hlast, h, hgoes⟩
    apply hstopped.append
    rw [List.forall_mem_cons]
    exact ⟨hlast.ending?_eq, hquiet⟩
  · -- the machine was stopped once more, with nobody running
    simp only [not_forall, Bool.not_eq_false] at hgoes
    obtain ⟨next, hmem, hstops⟩ := hgoes
    obtain ⟨between, since, rfl⟩ := List.append_of_mem hmem
    rw [← List.cons_append, ← List.append_assoc]
    exact .of_stops among hstops fun other hother ↦
      hquiet other (List.mem_append_right _ (List.mem_cons_of_mem _ hother))

theorem Run.stopKept (hrun : Run past kernel) : StopKept past kernel := by
  constructor
  case vacant => exact hrun.sound.size_of_idle
  case stopped_iff =>
    rintro among hidle ⟨step, hmem, pid, path, entry, size, hadmitted⟩
    have hbusy := hrun.busy_of_admitted hmem hadmitted
    exact ⟨hrun.not_leftIdle, hrun.stoppedSince hidle hbusy⟩

/-- A root exits while its only child is being loaded, and then the load fails. -/
def deserted : List (Call Nat) :=
  [.spawn none "init" .empty, .finishLoad (.ok ⟨0, 0, 0, 0, blank⟩),
    .spawn (some 1) "child" .empty, .terminate 1 (.exited 0), .finishLoad (.error .notFound)]

theorem stopKept_deserted :
    Run (initial.steps deserted) (initial.reach deserted) ∧
      StopKept (initial.steps deserted) (initial.reach deserted) := by
  have hrun : Run (initial.steps deserted) (initial.reach deserted) :=
    run_of_calls deserted (by decide +kernel)
  exact ⟨hrun, hrun.stopKept⟩

/-- The root was admitted and has ended, nobody runs, and nothing has stopped the machine. -/
theorem not_stoppedSince_deserted :
    Run (initial.steps deserted) (initial.reach deserted) ∧
      (initial.reach deserted).loads = [] ∧ (initial.reach deserted).table.runningPids = ∅ ∧
      admitted (initial.steps deserted) = [0] ∧
      ¬ StoppedSince (· ∈ admitted (initial.steps deserted)) (initial.steps deserted) := by
  have hrun : Run (initial.steps deserted) (initial.reach deserted) :=
    run_of_calls deserted (by decide +kernel)
  have hgoes : ∀ step ∈ initial.steps deserted, step.stops = false := by decide +kernel
  refine ⟨hrun, by decide +kernel, by decide +kernel, by decide +kernel, ?_⟩
  rintro ⟨earlier, step, later, hpast, hstops, -⟩
  rw [hgoes step (hpast ▸ List.mem_append_cons_self)] at hstops
  cases hstops

end Kernel

end Lifecycle
