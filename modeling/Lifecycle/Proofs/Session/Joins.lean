import Lifecycle.Proofs.Kernel.Awaiting
import Lifecycle.Proofs.Kernel.Stopping
import Lifecycle.Proofs.Session.Scripts

/-!
# Joins come to an end

Processes wait for their children only, and nobody is his own ancestor, so somebody among those that
run waits for nobody that runs. In a tame session the main task of such a process is not suspended.
Hence, when the queue has run empty, no process is left.
-/

namespace Lifecycle

/-- Nothing is left in a table. -/
structure Table.Vacant {Waker : Type} (table : Table Waker) : Prop where
  root_eq : table.root = none
  running_eq : table.running = 0
  size_eq : table.size = 0

namespace Kernel

variable {Waker : Type} {past : List (Step Waker)} {kernel : Kernel Waker}

/-- Who waits for whom comes to an end. -/
structure Grounded (kernel : Kernel Waker) : Prop where
  /-- Whoever waits for a process is its parent. -/
  follows {waiter target : Pid} (hwaits : kernel.WaitsFor waiter target) :
    kernel.table.parentOf? target = some waiter
  acyclic (pid : Pid) : ¬ kernel.table.Descends pid pid
  /-- As long as somebody runs, somebody who runs waits for nobody who runs. -/
  free {pid : Pid} (hrunning : kernel.table.phaseOf? pid = some .running) :
    ∃ last, kernel.table.phaseOf? last = some .running ∧
      ∀ target, kernel.WaitsFor last target → kernel.table.phaseOf? target ≠ some .running

theorem Run.grounded (hrun : Run past kernel) : kernel.Grounded where
  follows := hrun.parentOf?_of_waitsFor
  acyclic pid := by
    obtain ⟨depth, graded⟩ := hrun.exists_graded
    exact graded.not_descends pid
  free hrunning := by
    obtain ⟨last, hlast, hchildless⟩ := hrun.exists_childless hrunning
    exact ⟨last, hlast, fun target hwaits ↦ hchildless target (hrun.parentOf?_of_waitsFor hwaits)⟩

theorem Run.vacant (hrun : Run past kernel) (secluded : Secluded past)
    (hstopped : ∀ pid, kernel.table.phaseOf? pid ≠ some .running) : kernel.table.Vacant := by
  have hidle : kernel.table.runningPids = ∅ := by
    rw [Finset.eq_empty_iff_forall_notMem]
    exact fun pid hmem ↦ hstopped pid (Table.mem_runningPids.1 hmem)
  refine ⟨?_, ?_, hrun.sound.size_of_idle hidle⟩
  · rw [Option.eq_none_iff_forall_ne_some]
    exact fun root hroot ↦ hstopped root (hrun.sound.root_running hroot).1
  · rw [hrun.counted_of_secluded secluded, hidle, Finset.card_empty]

end Kernel

namespace Session

open Kernel (Run Secluded)

variable {setup : Setup} {core : Core} {session : Session} {takeSteps : StepTaker}
  {operation : Operation}

theorem Awaits.waitsFor {kernel : Kernel Waker} {id : TaskId} {pid : Pid} {request : RequestId}
    (hawaits : Awaits kernel id pid request) (tidy : kernel.Tidy) :
    ∃ target, kernel.WaitsFor pid target ∧ kernel.table.phaseOf? target = some .running := by
  obtain ⟨wait, hwait, hparked, hcaller⟩ := hawaits
  obtain ⟨hrunning, -, hclaim⟩ := Kernel.parked_iff.1 hparked
  refine ⟨wait.target, ⟨_, wait, hclaim, ?_, hcaller⟩, hrunning⟩
  rw [tidy.token_eq hwait, hwait]

/-- When no task is in the queue, nobody runs. -/
theorem Resting.vacant (resting : Resting setup core) (hline : core.queue.line = []) :
    core.kernel.table.Vacant := by
  obtain ⟨owners, tended, hidle⟩ := resting
  obtain ⟨past, hrun, secluded⟩ := tended.reached
  refine hrun.vacant secluded fun pid hrunning ↦ ?_
  obtain ⟨last, hlast, hfree⟩ := hrun.grounded.free hrunning
  obtain ⟨id, task, htask, -, rfl⟩ | ⟨load, hload, -⟩ | ⟨_, _, _, hmem⟩ := tended.attended hlast
  · obtain ⟨-, hmem⟩ | ⟨-, ⟨request, -, hawaits⟩ | ⟨_, hmem⟩⟩ :=
      (tended.waiting htask nofun).stands
    · rw [hline] at hmem
      cases hmem
    · obtain ⟨target, hwaits, htarget⟩ := hawaits.waitsFor hrun.tidy
      exact hfree target hwaits htarget
    · cases hmem
  · rw [hidle] at hload
    cases hload
  · cases hmem

/-! ## What is shown -/

/-- Nothing is left in the table that is shown. -/
def StateView.IsVacant : StateView → Prop
  | .full table => table.root = none ∧ table.running = 0 ∧ table.records = []
  | .brief root running size => root = none ∧ running = 0 ∧ size = 0

theorem TableView.records_ofTable {table : Table Waker} (hsize : table.size = 0) :
    (TableView.ofTable table).records = [] := by
  have hempty : table.records = ∅ := Std.ExtTreeMap.eq_empty_iff_size_eq_zero.2 hsize
  simp [TableView.ofTable, Table.recordList, hempty]

theorem leads_view {post : StateView → Core → Prop}
    (hpost : ∀ shown : StateView, (session.core.kernel.table.Vacant → shown.IsVacant) →
      post shown session.core) : Leads view session post := by
  refine leads_get_bind ?_
  split
  · exact leads_pure (hpost _ fun ⟨hroot, hrunning, hsize⟩ ↦ ⟨hroot, hrunning, hsize⟩)
  · exact leads_pure (hpost _ fun ⟨hroot, hrunning, hsize⟩ ↦
      ⟨hroot, hrunning, TableView.records_ofTable hsize⟩)

/-- A step shows the result of its action and the table that the action leaves. -/
theorem leads_report {action : SessionM Result} {first : Result → Core → Prop}
    {post : Step Event → Core → Prop}
    (hleads : ∀ middle : Session, middle.core = session.core → Leads action middle first)
    (hpost : ∀ (step : Step Event) (after : Core), first step.result after →
      (after.kernel.table.Vacant → step.state.IsVacant) → post step after) :
    Leads (report action) session post := by
  refine leads_get_bind (leads_modify_bind ?_)
  refine (hleads { session with events := #[] } rfl).bind fun result last hfirst ↦ ?_
  refine leads_get_bind (leads_modify_bind (Leads.bind (leads_view fun shown hshown ↦ ?_)
    fun shown after hpost ↦ leads_pure hpost))
  exact hpost ⟨result, shown, last.events.toList⟩ last.core hfirst hshown

/-- What a step shows that runs the queue: the number of turns, and nothing in the table unless the
run was cut short. -/
def Empties (limit : Nat) (operation : Operation) (step : Step Event) : Prop :=
  operation = .run →
    ∃ count, step.result = .ran count ∧ (count < limit → step.state.IsVacant)

section Tame

variable (tame : setup.Tame)

include tame

theorem leads_step (quiet : Quiet takeSteps) (resting : Resting setup session.core)
    (operation : Operation) :
    Leads (report (apply takeSteps operation)) session fun step after ↦
      Empties setup.runLimit operation step ∧ Resting setup after := by
  by_cases hrun : operation = .run
  · subst hrun
    refine leads_report (fun middle hmiddle ↦ leads_run tame quiet (hmiddle ▸ resting)) ?_
    rintro step after ⟨⟨count, hresult, hline⟩, hafter⟩ hshown
    exact ⟨fun _ ↦ ⟨count, hresult, fun hlt ↦ hshown (hafter.vacant (hline hlt))⟩, hafter⟩
  · refine leads_report
      (fun middle hmiddle ↦ leads_apply tame quiet (hmiddle ▸ resting) operation) ?_
    exact fun step after hafter _ ↦ ⟨fun heq ↦ absurd heq hrun, hafter⟩

theorem leads_takeStepsWithin (resting : Resting setup session.core) (depth : Nat)
    (script : List Operation) :
    Leads (takeStepsWithin (depth + 1) script) session fun steps after ↦
      List.Forall₂ (Empties setup.runLimit) script steps ∧ Resting setup after :=
  leads_mapM script
    (fun operation _ hmiddle ↦ leads_step tame (quiet_takeStepsWithin depth) hmiddle operation)
    resting

end Tame

/-- The session after a script. -/
def Setup.last (setup : Setup) (script : List Operation) : Session :=
  let whole : SessionM (List (Step Event)) := do
    let _ ← boot setup.memories
    takeStepsWithin (setup.images.length + 1) script
  (whole.run setup.session).2

theorem Setup.Tame.leads_script (tame : setup.Tame) (script : List Operation) :
    List.Forall₂ (Empties setup.runLimit) script (setup.run script).steps ∧
      Resting setup (setup.last script).core := by
  have hscript : Leads (do
      let _ ← boot setup.memories
      takeStepsWithin (setup.images.length + 1) script) setup.session fun steps after ↦
        List.Forall₂ (Empties setup.runLimit) script steps ∧ Resting setup after := by
    refine (idle_boot setup.memories).bind_leads fun _ middle hmiddle ↦ ?_
    exact leads_takeStepsWithin tame (hmiddle ▸ resting_session setup) _ script
  exact hscript

/-- Joins do not keep a session from coming to an end. -/
structure JoinsEnd (setup : Setup) : Prop where
  /-- Whatever the script, the kernel is led there by calls of which none is made during a load. -/
  reached (script : List Operation) :
    ∃ past, Run past (setup.last script).kernel ∧ Secluded past
  grounded {past : List (Kernel.Step Waker)} {kernel : Kernel Waker} (hrun : Run past kernel) :
    kernel.Grounded
  /-- Whenever no task is in the queue, no process is left. -/
  vacant {script : List Operation} (hline : (setup.last script).queue.line = []) :
    (setup.last script).kernel.table.Vacant
  /-- Every run of the queue is answered, and if it is not cut short nothing is left afterwards. -/
  empties (script : List Operation) :
    List.Forall₂ (Empties setup.runLimit) script (setup.run script).steps

/-- If images make no calls while they are loaded, and every process has a program that never parks,
joins cannot deadlock. -/
theorem Setup.Tame.joinsEnd (tame : setup.Tame) : JoinsEnd setup := by
  constructor
  case reached =>
    intro script
    obtain ⟨-, owners, tended, -⟩ := tame.leads_script script
    exact tended.reached
  case grounded => exact Run.grounded
  case vacant => exact fun {script} hline ↦ (tame.leads_script script).2.vacant hline
  case empties => exact fun script ↦ (tame.leads_script script).1

/-- The root starts two children and waits for the second one first; a child gives way once. The
image of the children looks at the table while it is loaded. -/
def nursery : Setup where
  images :=
    [("init", ⟨{}, none, some [.exec (some "first") "child" [] none,
        .exec (some "second") "child" [] none, .join (.named "second"), .join (.named "first")]⟩),
      ("child", ⟨{}, some [.table], some [.yield, .exit 7]⟩)]
  isBrief := true
  runLimit := 100

theorem tame_nursery : nursery.Tame := by
  intro named hmem
  obtain rfl | rfl : named = _ ∨ named = _ := by simpa [nursery] using hmem
  · exact ⟨by simp, fun _ ↦ ⟨_, rfl, rfl⟩⟩
  · exact ⟨by simp [Operation.isPassive], fun _ ↦ ⟨_, rfl, rfl⟩⟩

/-- The root runs before its program is performed; afterwards nothing is left. -/
theorem joinsEnd_nursery :
    (nursery.run [.spawn none "init" [] none, .run]).steps.map (·.state) =
        [.brief (some 1) 1 1, .brief none 0 0] ∧ JoinsEnd nursery :=
  ⟨by decide +kernel, tame_nursery.joinsEnd⟩

end Session

end Lifecycle
