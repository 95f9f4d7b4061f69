import Lifecycle.Proofs.Kernel.Reissue

/-!
# How ids are numbered

The ids below the next fresh one are those of the records and those that wait to be handed out
again, and no id is both or waits twice. How many ids are fresh still depends only on how many
processes were taken in since the machine stopped last: the first ones are numbered in order. There
are more ids than records, so a process is never turned down for want of an id.
-/

namespace Lifecycle.Kernel

variable {Waker : Type} {past earlier later : List (Step Waker)} {kernel : Kernel Waker}
  {step : Step Waker} {pid : Pid}

/-- Whether a process is taken in. -/
def Step.takesAny (step : Step Waker) : Bool :=
  step.before.table.births < step.after.table.births

/-- The number of processes that were taken in since the machine stopped last. -/
def intakes (past : List (Step Waker)) : Nat :=
  (past.rtakeWhile fun step ↦ !step.stops).countP (·.takesAny)

theorem intakes_of_stops (hstops : step.stops = true) : intakes (past ++ [step]) = 0 := by
  rw [intakes, List.rtakeWhile_concat_neg, List.countP_nil]
  simp [hstops]

theorem intakes_of_goes (hgoes : step.stops = false) :
    intakes (past ++ [step]) = intakes past + if step.takesAny then 1 else 0 := by
  rw [intakes, List.rtakeWhile_concat_pos, List.countP_append, List.countP_singleton, intakes]
  simp [hgoes]

/-- The next fresh id tells how many processes were taken in, until all ids have been fresh. -/
theorem next_eq_of_step (sound : step.before.table.Sound) (hsafe : ¬ step.reply.Faulted)
    (hnext : step.before.table.pids.next =
      min Limits.pidLimit (Limits.firstPid + intakes past)) :
    step.after.table.pids.next =
      min Limits.pidLimit (Limits.firstPid + intakes (past ++ [step])) := by
  cases hstops : step.stops with
  | true =>
    obtain ⟨last, hvacated⟩ := step.vacated_of_stops sound hsafe hstops
    rw [intakes_of_stops hstops, hvacated]
    rfl
  | false =>
    have hlimit := sound.limit_eq
    rw [intakes_of_goes hstops]
    rw [step.stops_eq] at hstops
    obtain ⟨parent, name, pid, hinserted⟩ | ⟨hbirths, hkept⟩ :=
      (step.change sound hsafe).inserted_or_kept hstops
    · have htakes : step.takesAny = true :=
        decide_eq_true (hinserted.births_eq ▸ Nat.lt_succ_self _)
      have htake := IdPool.take?_eq_some hinserted.taken
      rw [htakes, if_pos rfl]
      omega
    · have htakes : step.takesAny = false :=
        decide_eq_false (hbirths ▸ Nat.lt_irrefl _)
      rw [htakes, hkept, hnext]
      rfl

theorem Run.next_eq (hrun : Run past kernel) :
    kernel.table.pids.next = min Limits.pidLimit (Limits.firstPid + intakes past) := by
  induction hrun with
  | start => rfl
  | @step past kernel hrun call hsafe ih =>
    let step : Step Waker := ⟨kernel, call⟩
    have hsound : step.before.table.Sound := hrun.sound
    exact next_eq_of_step hsound hsafe ih

/-- As long as there are fresh ids, a process gets the number of those taken in before it. -/
theorem Run.eq_of_inserted {after : Table Waker} {parent : Option Pid} {name : String}
    (hrun : Run past kernel) (hinserted : kernel.table.Inserted after parent name pid)
    (hfresh : intakes past + 1 < Limits.pidLimit) : pid = intakes past + 1 := by
  have hlimit := hrun.sound.limit_eq
  have hnext : kernel.table.pids.next = intakes past + 1 := by
    rw [hrun.next_eq, Limits.firstPid]
    omega
  obtain ⟨-, hpid, -⟩ | ⟨hspent, -⟩ := IdPool.take?_eq_some hinserted.taken
  · exact hpid.trans hnext
  · omega

/-- How the ids of a reachable table are accounted for, and how it hands them out. -/
structure PidsKept (past : List (Step Waker)) (kernel : Kernel Waker) : Prop where
  freed_nodup : kernel.table.pids.freed.Nodup
  freed_absent {pid : Pid} (hfreed : pid ∈ kernel.table.pids.freed) :
    kernel.table.record? pid = none
  accounted (pid : Pid) :
    pid ∈ kernel.table.pids.freed ∨ kernel.table.record? pid ≠ none ↔
      Limits.firstPid ≤ pid ∧ pid < kernel.table.pids.next
  next_le : kernel.table.pids.next ≤ Limits.pidLimit
  insert_inRange {parent : Option Pid} {name : String} {pid : Pid}
    {effects : List (Effect Waker)} {scene : Scene Waker}
    (hdone : (Table.insert parent name).run ⟨kernel.table, effects⟩ = .done pid scene) :
    Limits.firstPid ≤ pid ∧ pid < Limits.pidLimit ∧ kernel.table.record? pid = none
  /-- A process is turned down for want of room only, and never for want of an id. -/
  insert_full_iff (parent : Option Pid) (name : String) (effects : List (Effect Waker)) :
    (∃ scene, (Table.insert parent name).run ⟨kernel.table, effects⟩ =
      .failed (.refused .EAGAIN) scene) ↔ kernel.table.size = Limits.maxProcesses
  /-- Whoever is turned down uses no id up. -/
  insert_refused {parent : Option Pid} {name : String} {effects : List (Effect Waker)}
    {failure : Failure} {scene : Scene Waker}
    (hfailed : (Table.insert parent name).run ⟨kernel.table, effects⟩ = .failed failure scene) :
    (∃ cause, failure = .refused cause) ∧ scene.table = kernel.table
  insert_numbered {parent : Option Pid} {name : String} {pid : Pid}
    {effects : List (Effect Waker)} {scene : Scene Waker}
    (hdone : (Table.insert parent name).run ⟨kernel.table, effects⟩ = .done pid scene)
    (hfresh : intakes past + 1 < Limits.pidLimit) : pid = intakes past + 1
  takesIn_numbered {earlier later : List (Step Waker)} {step : Step Waker} {pid : Pid}
    (hpast : past = earlier ++ step :: later) (htakes : step.TakesIn pid)
    (hfresh : intakes earlier + 1 < Limits.pidLimit) : pid = intakes earlier + 1

theorem Run.pidsKept (hrun : Run past kernel) : PidsKept past kernel := by
  have sound := hrun.sound
  constructor
  case freed_nodup => exact kernel.table.pids.freed_nodup
  case freed_absent =>
    intro pid hfreed
    exact Table.phaseOf?_eq_none_iff.1 (sound.freed_absent hfreed)
  case accounted =>
    intro pid
    rw [← sound.accounted, or_comm, ne_eq, ne_eq, Table.phaseOf?_eq_none_iff]
  case next_le => exact sound.next_le
  case insert_inRange =>
    intro parent name pid effects scene hdone
    have hinserted := Table.inserted_of_done sound hdone
    have htaken := (hinserted.sound sound).accounted pid
    have hpresent : scene.table.phaseOf? pid ≠ none := by
      rw [hinserted.phaseOf?_eq, if_pos rfl]
      exact Option.some_ne_none _
    have hnext := (hinserted.sound sound).next_le
    obtain ⟨hfirst, hlt⟩ := htaken.1 (.inl hpresent)
    exact ⟨hfirst, Nat.lt_of_lt_of_le hlt hnext, hinserted.absent⟩
  case insert_full_iff =>
    intro parent name effects
    constructor
    · rintro ⟨scene, hfailed⟩
      obtain ⟨cause, hdeclines, hcause, -⟩ := Table.declines_of_failed sound hfailed
      cases hcause
      cases hdeclines with
      | full _ hfull => exact Nat.le_antisymm sound.size_le hfull
    · intro hsize
      have hdeclines : (Table.insert parent name).Yields kernel.table (.error .EAGAIN) kernel.table
          [] := Table.insert_declines (.full parent (Nat.le_of_eq hsize.symm))
      obtain ⟨added, -, hrefused⟩ := hdeclines effects
      exact ⟨_, hrefused⟩
  case insert_refused =>
    intro parent name effects failure scene hfailed
    obtain ⟨cause, -, hcause, hsame⟩ := Table.declines_of_failed sound hfailed
    exact ⟨⟨cause, hcause⟩, hsame⟩
  case insert_numbered =>
    intro parent name pid effects scene hdone
    exact hrun.eq_of_inserted (Table.inserted_of_done sound hdone)
  case takesIn_numbered =>
    rintro earlier later step pid rfl htakes
    obtain ⟨hbefore, hsafe⟩ := hrun.of_append
    obtain ⟨parent, name, hinserted⟩ :=
      (step.change hbefore.sound hsafe).inserted_of_newborn hbefore.sound htakes
    exact hbefore.eq_of_inserted hinserted

/-- A child is started and is gone again, and another one is started; then the machine stops and
starts anew. -/
def restarted : List (Call Nat) :=
  family ++ [.spawn (some 1) "work" .empty, .finishLoad (.error .badImage), .shutdown,
    .spawn none "init" .empty, .finishLoad (.ok ⟨0, 0, 0, 0, blank⟩)]

theorem pidsKept_restarted :
    (intakes (initial.steps (restarted.take 10)) = 3 ∧
      (initial.reach (restarted.take 10)).table.pids.freed = [3, 2]) ∧
    (intakes (initial.steps restarted) = 1 ∧
      (initial.reach restarted).table.pids.freed = [] ∧
      (initial.reach restarted).table.record? 1 ≠ none) ∧
    PidsKept (initial.steps restarted) (initial.reach restarted) := by
  have hrun : Run (initial.steps restarted) (initial.reach restarted) :=
    run_of_calls restarted (by decide +kernel)
  refine ⟨?_, ?_, hrun.pidsKept⟩
  · decide +kernel
  · rw [ne_eq, ← Table.phaseOf?_eq_none_iff]
    decide +kernel

end Lifecycle.Kernel
