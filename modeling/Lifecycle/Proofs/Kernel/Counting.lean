import Lifecycle.Proofs.Kernel.Delivery
import Lifecycle.Proofs.Table.Count
import Mathlib.Data.List.DropRight

/-!
# How far the count of running processes is right

When a load has failed, the record is withdrawn and the count goes down, whether or not the process
has ended in the meantime. If it has, it was counted out before. So the count falls short by the
number of exited processes that were withdrawn since the machine stopped last, and the last process
is told from the others only as long as there was none.
-/

namespace Lifecycle

variable {Waker : Type}

namespace Effect

def isStop : Effect Waker → Bool
  | .stop _ => true
  | .note _ | .wake .. | .discard _ | .admitted .. | .halt _ => false

theorem any_isStop_wakes (wakers : List Waker) (size : Nat) :
    (wakers.map (.wake · size)).any isStop = false := by
  rw [List.any_map, List.any_eq_false]
  exact fun _ _ ↦ Bool.false_ne_true

end Effect

namespace Kernel

/-- Whether an exited process is withdrawn. -/
def Demand.withdrawsExited (table : Table Waker) : Demand Waker → Bool
  | .settle load (.error _) => ((table.phaseOf? load.pid).bind Phase.status?).isSome
  | _ => false

namespace Step

/-- Whether the machine stops. -/
def stops (step : Step Waker) : Bool := step.reply.effects.any Effect.isStop

def withdrawsExited (step : Step Waker) : Bool := step.demand.withdrawsExited step.before.table

theorem stops_eq (step : Step Waker) : step.stops = step.reply.audible.any Effect.isStop := by
  rw [stops, Reply.audible, List.any_filter]
  congr 1
  funext effect
  cases effect <;> rfl

theorem stops_of_mem (step : Step Waker) {size : Nat} (hmem : .stop size ∈ step.reply.effects) :
    step.stops = true :=
  List.any_eq_true.2 ⟨_, hmem, rfl⟩

end Step

/-- The number of exited processes that were withdrawn since the machine stopped last. -/
def miscounted (past : List (Step Waker)) : Nat :=
  (past.rtakeWhile fun step ↦ !step.stops).countP (·.withdrawsExited)

variable {past : List (Step Waker)} {kernel : Kernel Waker} {step : Step Waker}

theorem miscounted_of_stops (hstops : step.stops = true) : miscounted (past ++ [step]) = 0 := by
  rw [miscounted, List.rtakeWhile_concat_neg, List.countP_nil]
  simp [hstops]

theorem miscounted_of_kept (hstops : step.stops = false) (hkept : step.withdrawsExited = false) :
    miscounted (past ++ [step]) = miscounted past := by
  rw [miscounted, List.rtakeWhile_concat_pos, List.countP_append, List.countP_singleton, miscounted]
  · simp [hkept]
  · simp [hstops]

theorem miscounted_of_withdrawsExited (hstops : step.stops = false)
    (hwithdrawn : step.withdrawsExited = true) :
    miscounted (past ++ [step]) = miscounted past + 1 := by
  rw [miscounted, List.rtakeWhile_concat_pos, List.countP_append, List.countP_singleton, miscounted]
  · simp [hwithdrawn]
  · simp [hstops]

/-! ## What a step does to the count -/

theorem withdrawsExited_iff {table : Table Waker} {load : Load} {cause : LoadFailure} :
    (Demand.settle load (.error cause) : Demand Waker).withdrawsExited table = true ↔
      ∃ status, table.phaseOf? load.pid = some (.exited status) := by
  rw [Demand.withdrawsExited]
  cases table.phaseOf? load.pid with
  | none => simp
  | some phase => cases phase <;> simp [Phase.status?]

/-- What a demand does to the running processes and to their count. -/
inductive Tally (demand : Demand Waker) (before after : Table Waker) (stops : Bool) : Prop where
  | kept (hstops : stops = false) (hkept : demand.withdrawsExited before = false)
      (hcount : after.running = before.running)
      (hsame : after.runningPids = before.runningPids)
  | gained (hstops : stops = false) (hkept : demand.withdrawsExited before = false)
      (hcount : after.running = before.running + 1)
      (hcard : after.runningPids.card = before.runningPids.card + 1)
  | lost {pid : Pid} (hstops : stops = false) (hkept : demand.withdrawsExited before = false)
      (hrunning : before.phaseOf? pid = some .running)
      (hcount : after.running + 1 = before.running)
      (herase : after.runningPids = before.runningPids.erase pid)
      (hwhy : after.running ≠ 0 ∨ ∃ load cause, demand = .settle load (.error cause) ∧
        load.pid = pid)
  | miscounted (hstops : stops = false) (hwithdrawn : demand.withdrawsExited before = true)
      (hcount : after.running + 1 = before.running)
      (hsame : after.runningPids = before.runningPids)
  | stopped {last : Table Waker} (hstops : stops = true) (hvacated : after = last.vacated)

section Tally

variable {demand : Demand Waker} {after : Table Waker} {audible : List (Effect Waker)}

theorem tally_of_withdrawn {load : Load} {cause : LoadFailure} (wakers : List Waker)
    (hremoved : kernel.table.Removed after load.pid)
    (hcount : after.running + 1 = kernel.table.running) :
    Tally (.settle load (.error cause)) kernel.table after
      ((wakers.map (.wake · after.size)).any Effect.isStop) := by
  have hstops := Effect.any_isStop_wakes wakers after.size
  obtain ⟨phase, hphase⟩ := Option.ne_none_iff_exists'.1
    (mt Table.phaseOf?_eq_none_iff.1 hremoved.present)
  cases phase with
  | running =>
    have hkept : (Demand.settle load (.error cause)).withdrawsExited kernel.table = false := by
      rw [Bool.eq_false_iff, ne_eq, withdrawsExited_iff, hphase]
      nofun
    exact .lost hstops hkept hphase hcount hremoved.runningPids_eq (.inr ⟨load, cause, rfl, rfl⟩)
  | exited status =>
    exact .miscounted hstops (withdrawsExited_iff.2 ⟨status, hphase⟩) hcount
      (hremoved.runningPids_of_exited hphase)

theorem tally_of_ends {pid : Pid} {status : ExitStatus} (sound : kernel.table.Sound)
    (ends : kernel.table.Ends pid status after audible) :
    Tally (.finish pid status) kernel.table after (audible.any Effect.isStop) := by
  cases ends with
  | left hended hleft =>
    exact .lost (Effect.any_isStop_wakes _ _) rfl hended.was_running hended.running_eq
      (hended.runningPids_eq sound) (.inl hleft)
  | last _ _ => exact .stopped (by simp [Effect.isStop]) rfl

theorem Change.tally {loads : List Load} {answer : Answer} (sound : kernel.table.Sound)
    (change : kernel.Change demand after loads audible answer) :
    Tally demand kernel.table after (audible.any Effect.isStop) := by
  cases change with
  | unchanged hvoid hquiet =>
    have hstops : audible.any Effect.isStop = false := by
      rw [List.any_eq_false]
      intro effect hmem
      obtain ⟨size, rfl⟩ := hquiet effect hmem
      exact Bool.false_ne_true
    have hkept : demand.withdrawsExited kernel.table = false := by cases hvoid <;> rfl
    exact .kept hstops hkept rfl rfl
  | inserted hinserted =>
    exact .gained rfl rfl hinserted.running_eq hinserted.card_runningPids
  | admitted => exact .kept rfl rfl rfl rfl
  | gone _ habsent =>
    refine .kept rfl ?_ rfl rfl
    rw [Bool.eq_false_iff, ne_eq, withdrawsExited_iff, habsent]
    nofun
  | withdrawn _ hremoved hcount => exact tally_of_withdrawn _ hremoved hcount
  | ended hends => exact tally_of_ends sound hends
  | cleared => exact .stopped (by simp [Effect.isStop]) rfl
  | polled hattempts => exact .kept rfl rfl hattempts.running_eq (hattempts.runningPids_eq sound)
  | released =>
    exact .kept rfl rfl (Table.running_setClaim _ _) (Table.runningPids_setClaim sound none)

end Tally

theorem Step.tally (step : Step Waker) (sound : step.before.table.Sound)
    (hsafe : ¬ step.reply.Faulted) :
    Tally step.demand step.before.table step.after.table step.stops := by
  rw [Step.stops_eq]
  exact (step.change sound hsafe).tally sound

theorem Step.vacated_of_stops (step : Step Waker) (sound : step.before.table.Sound)
    (hsafe : ¬ step.reply.Faulted) (hstops : step.stops = true) :
    ∃ last : Table Waker, step.after.table = last.vacated := by
  cases step.tally sound hsafe with
  | stopped _ hvacated => exact ⟨_, hvacated⟩
  | kept hgoes | gained hgoes | lost hgoes | miscounted hgoes =>
    rw [hstops] at hgoes
    cases hgoes

theorem running_add_of_tally
    (htally : Tally step.demand step.before.table step.after.table step.stops)
    (hadd : step.before.table.running + miscounted past = step.before.table.runningPids.card) :
    step.after.table.running + miscounted (past ++ [step]) =
      step.after.table.runningPids.card := by
  cases htally with
  | kept hstops hkept hcount hsame =>
    rw [miscounted_of_kept hstops hkept, hcount, hsame, hadd]
  | gained hstops hkept hcount hcard =>
    rw [miscounted_of_kept hstops hkept, hcount, hcard, ← hadd, Nat.add_right_comm]
  | lost hstops hkept hrunning hcount herase =>
    have hcard := Finset.card_erase_add_one (Table.mem_runningPids.2 hrunning)
    rw [miscounted_of_kept hstops hkept, herase]
    omega
  | miscounted hstops hwithdrawn hcount hsame =>
    rw [miscounted_of_withdrawsExited hstops hwithdrawn, hsame, ← hadd, ← hcount]
    omega
  | stopped hstops hvacated =>
    rw [miscounted_of_stops hstops, hvacated, Table.runningPids_vacated]
    rfl

/-- The count and what was miscounted add up to the number of running processes. -/
theorem Run.running_add (hrun : Run past kernel) :
    kernel.table.running + miscounted past = kernel.table.runningPids.card := by
  induction hrun with
  | start => rfl
  | @step past kernel hrun call hsafe ih =>
    exact running_add_of_tally (Step.tally ⟨kernel, call⟩ hrun.sound hsafe) ih

/-! ## The last process -/

theorem Change.ends_of_running {pid : Pid} {status : ExitStatus} {after : Table Waker}
    {loads : List Load} {audible : List (Effect Waker)} {answer : Answer}
    (change : kernel.Change (.finish pid status) after loads audible answer)
    (hrunning : kernel.table.phaseOf? pid = some .running) :
    kernel.table.Ends pid status after audible := by
  cases change with
  | unchanged hvoid =>
    cases hvoid with
    | finish _ habsent => simp [habsent] at hrunning
  | ended hends => exact hends

section Last

variable {before after : Table Waker} {pid : Pid} {status : ExitStatus} {short : Nat}
  (hadd : before.running + short = before.runningPids.card)

include hadd

/-- If the count falls short, it is at zero when as many processes are left. -/
theorem running_eq_zero_iff {wakers : List Waker} (sound : before.Sound)
    (ended : before.Ended after pid status wakers) :
    after.running = 0 ↔ after.runningPids.card = short := by
  have hcard := Finset.card_erase_add_one (Table.mem_runningPids.2 ended.was_running)
  rw [← ended.runningPids_eq sound] at hcard
  have hcount := ended.running_eq
  omega

theorem any_isStop_iff {audible : List (Effect Waker)} (sound : before.Sound)
    (ends : before.Ends pid status after audible) :
    audible.any Effect.isStop = true ↔ (before.runningPids.erase pid).card = short := by
  cases ends with
  | left hended hleft =>
    rw [← hended.runningPids_eq sound, ← running_eq_zero_iff hadd sound hended,
      Effect.any_isStop_wakes]
    exact iff_of_false Bool.false_ne_true hleft
  | last hended hlast =>
    rw [← hended.runningPids_eq sound, ← running_eq_zero_iff hadd sound hended]
    exact iff_of_true (by simp [Effect.isStop]) hlast

end Last

/-- How far the count can be relied on after a run. -/
structure CountKept (past : List (Step Waker)) (kernel : Kernel Waker) : Prop where
  running_add : kernel.table.running + miscounted past = kernel.table.runningPids.card
  counted_iff : kernel.table.Counted ↔ miscounted past = 0
  /-- A process that ends is taken for the last if as many others run as were miscounted. -/
  isLast_iff {pid : Pid} {status : ExitStatus} {effects : List (Effect Waker)}
    {ending : Table.Ending Waker} {scene : Scene Waker}
    (hdone : (Table.terminate pid status).run ⟨kernel.table, effects⟩ = .done ending scene) :
    ending.isLast = true ↔ scene.table.runningPids.card = miscounted past
  /-- The machine stops when it is the last process, as far as the count tells, that ends. -/
  stops_iff {earlier later : List (Step Waker)} {step : Step Waker} {pid : Pid}
    {status : ExitStatus} (hpast : past = earlier ++ step :: later)
    (hdemand : step.demand = .finish pid status)
    (hrunning : step.before.table.phaseOf? pid = some .running) :
    step.stops = true ↔ (step.before.table.runningPids.erase pid).card = miscounted earlier
  /-- No record is left when the machine stops. -/
  vacant_of_stops {step : Step Waker} (hmem : step ∈ past) (hstops : step.stops = true) :
    step.after.table.size = 0

theorem Run.countKept (hrun : Run past kernel) : CountKept past kernel := by
  have hadd := hrun.running_add
  constructor
  case running_add => exact hadd
  case counted_iff => rw [Table.Counted, ← hadd, Nat.left_eq_add]
  case isLast_iff =>
    intro pid status effects ending scene hdone
    obtain ⟨-, hyields⟩ | ⟨-, -, hfaults⟩ | ⟨after, wakers, hended, hyields⟩ :=
      Table.terminate_spec hrun.sound pid status
    · obtain ⟨added, -, hfailed⟩ := hyields effects
      rw [hdone] at hfailed
      cases hfailed
    · obtain ⟨cause, left, hfailed⟩ := hfaults effects
      rw [hdone] at hfailed
      cases hfailed
    · obtain ⟨added, -, hran⟩ := hyields effects
      rw [hdone] at hran
      cases hran
      rw [decide_eq_true_iff]
      exact running_eq_zero_iff hadd hrun.sound hended
  case stops_iff =>
    rintro earlier later step pid status rfl hdemand hrunning
    obtain ⟨hbefore, hsafe⟩ := hrun.of_append
    have change := step.change hbefore.sound hsafe
    rw [hdemand] at change
    rw [step.stops_eq]
    exact any_isStop_iff hbefore.running_add hbefore.sound (change.ends_of_running hrunning)
  case vacant_of_stops =>
    intro step hmem hstops
    obtain ⟨earlier, later, rfl⟩ := List.append_of_mem hmem
    obtain ⟨hbefore, hsafe⟩ := hrun.of_append
    obtain ⟨last, hvacated⟩ := step.vacated_of_stops hbefore.sound hsafe hstops
    rw [hvacated]
    rfl

/-- A child is killed while it is being loaded, and then the load fails. -/
def overtaken : List (Call Nat) :=
  [.spawn none "init" .empty, .finishLoad (.ok ⟨0, 0, 0, 0, blank⟩),
    .spawn (some 1) "work" .empty, .finishLoad (.ok ⟨0, 0, 0, 0, blank⟩),
    .spawn (some 1) "late" .empty, .terminate 3 .killed, .finishLoad (.error .badImage)]

theorem countKept_overtaken :
    miscounted (initial.steps overtaken) = 1 ∧
      CountKept (initial.steps overtaken) (initial.reach overtaken) := by
  have hrun : Run (initial.steps overtaken) (initial.reach overtaken) :=
    run_of_calls overtaken (by decide +kernel)
  exact ⟨by decide +kernel, hrun.countKept⟩

/-- Two processes run and one is counted; when the child exits, the machine stops under the root. -/
theorem not_counted_overtaken :
    Run (initial.steps overtaken) (initial.reach overtaken) ∧
      ¬ (initial.reach overtaken).table.Counted ∧
      (initial.reach overtaken).table.runningPids = {1, 2} ∧
      (Step.mk (initial.reach overtaken) (.terminate 2 (.exited 0))).stops = true := by
  have hrun : Run (initial.steps overtaken) (initial.reach overtaken) :=
    run_of_calls overtaken (by decide +kernel)
  refine ⟨hrun, ?_, ?_, ?_⟩
  · unfold Table.Counted
    decide +kernel
  · decide +kernel
  · decide +kernel

end Kernel

end Lifecycle
