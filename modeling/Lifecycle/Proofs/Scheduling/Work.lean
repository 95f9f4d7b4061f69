import Lifecycle.Proofs.Scheduling.Waiting

/-!
# Work that is done in order

An executor neither loses nor repeats nor reorders the work of its tasks. Whenever it has been run,
each job is at its end, or it is held or parked with the rest of its steps, or it has not begun:
then a later operation brings it, or one of the steps that a held or parked task still has to do.
-/

namespace Lifecycle.Executor

open StateTransition

variable {declared : List Job} {events : List Event} {stage : Stage} {id : TaskId} {task : Task}
  {job : Job}

/-- A task waits on an idle executor with the steps of its job that are left: it is held and has
done nothing, or it was not woken since it did a step that parks. -/
inductive Pauses (declared : List Job) (stage : Stage) (events : List Event) :
    Job → List Step → Prop where
  | held {id : TaskId} {job : Job} (hholds : stage.Holds id)
      (htask : stage.executor.tasks[id]? = some ⟨job.name, 0, job.steps⟩)
      (hseen : seen job.name events = []) : Pauses declared stage events job job.steps
  | parked {id : TaskId} {name : String} {done rest : List Step}
      (hparks : stage.Parks declared id)
      (htask : stage.executor.tasks[id]? = some ⟨name, done.length + 1, rest⟩)
      (hseen : seen name events = course name 0 (done ++ [.park])) :
      Pauses declared stage events ⟨name, done ++ .park :: rest⟩ rest

/-- Where a job is while nothing is to be run. -/
inductive Rested (declared : List Job) (stage : Stage) (events : List Event) (job : Job) :
    Prop where
  | ended (hseen : seen job.name events = job.course)
  | paused {left : List Step} (hpauses : Pauses declared stage events job left)
  /-- A waiting task has still to spawn it, or to spawn one that will. -/
  | unspawned {spawner : Job} {left : List Step}
      (hpauses : Pauses declared stage events spawner left) (hmem : job ∈ stepsJobs left)
      (hseen : seen job.name events = [])
  /-- An operation that has not begun brings it. -/
  | announced (hmem : job ∈ jobs stage.agenda) (hseen : seen job.name events = [])

namespace Stage

section Idle

variable (fits : Fits declared stage) (hbusy : stage.busy = none)
  (hline : stage.executor.queue.line = [])
  (ledger : Ledger declared (jobs stage.agenda) stage.executor.tasks events)

include fits hbusy hline ledger

/-- Every unfinished task waits with what is left of a declared job. -/
theorem Fits.pauses (htask : stage.executor.tasks[id]? = some task) :
    ∃ job ∈ declared, job.name = task.name ∧ Pauses declared stage events job task.steps := by
  obtain ⟨past, sound⟩ := fits.settled hbusy
  obtain ⟨done, hdeclared, hlength, hseen⟩ := ledger.begun htask
  have hplaced := sound.placed id
  rw [htask] at hplaced
  have hstanding : stage.executor.queue.standing id ≠ .ended := by
    intro hended
    rw [hended] at hplaced
    cases hplaced
  have hlt : id < stage.executor.queue.next := sound.full.numbered hstanding
  have hunfinished := (fits.chronicled.told hlt).not_ended hstanding
  refine ⟨_, hdeclared, rfl, ?_⟩
  obtain hholds | hparks := fits.waits hbusy hline hlt hunfinished
  · obtain ⟨name, hmem⟩ := hholds.held
    rw [(sound.held hmem).1] at hplaced
    cases hplaced
    obtain rfl := List.length_eq_zero_iff.1 hlength
    exact .held hholds htask hseen
  · obtain ⟨name, front, rest, hparked, hsame⟩ := hparks.parked
    obtain rfl := Option.some_inj.1 (htask.symm.trans hsame)
    have hsteps := congrArg Job.steps (ledger.unique hdeclared hparked rfl)
    obtain rfl : done = front ++ [.park] :=
      List.append_cancel_right (hsteps.trans (List.append_cons ..))
    rw [← List.append_cons]
    exact .parked hparks htask hseen

/-- No job is lost while nothing is to be run. -/
theorem Fits.rested (hjob : job ∈ declared) : Rested declared stage events job := by
  obtain hahead | ⟨id, task, htask, hname⟩ | hover := ledger.fate hjob
  · obtain ⟨-, hseen⟩ := ledger.ahead hahead
    obtain hlater | ⟨id, task, htask, hmem⟩ := hahead
    · exact .announced hlater hseen
    · obtain ⟨spawner, -, -, hpauses⟩ := fits.pauses hbusy hline ledger htask
      exact .unspawned hpauses hmem hseen
  · obtain ⟨paused, hdeclared, hsame, hpauses⟩ := fits.pauses hbusy hline ledger htask
    obtain rfl := ledger.unique hjob hdeclared (hname.symm.trans hsame.symm)
    exact .paused hpauses
  · exact .ended hover

end Idle

end Stage

/-- An executor goes idle whenever it is run, does the steps of each job in their order, loses none
of them, and runs tasks no more often than their steps give way and end. -/
structure WorkKept (operations : List Operation) : Prop where
  idle {before after : List Operation} (hsplit : operations = before ++ .run :: after) :
    ({ (empty.applyAll before).1 with events := #[] } : Executor).Idles
  ordered {job : Job} (hjob : job ∈ jobs operations) :
    seen job.name (seenDuring operations) <+: job.course
  rested {before after : List Operation} (hsplit : operations = before ++ .run :: after) :
    ∃ history,
      let stage := Stage.between (empty.applyAll (before ++ [.run])).1 after history
      Reaches Stage.advance (.start operations) stage ∧
        ∀ job ∈ jobs operations,
          Rested (jobs operations) stage (seenDuring (before ++ [.run])) job
  bounded : ((empty.applyAll operations).2.map (·.result.runs)).sum ≤
    ((jobs operations).map Job.runs).sum

theorem workKept {operations : List Operation}
    (hnames : ((jobs operations).map Job.name).Nodup) : WorkKept operations where
  idle hsplit := by
    subst hsplit
    exact (Sound.of_prefix hnames).1.idles
  ordered hjob := by
    rw [← List.append_nil operations] at hnames hjob
    have hseen := (Sound.of_prefix hnames).1.isPrefix hjob
    rwa [List.append_nil] at hseen
  rested {before after} hsplit := by
    have hline : (empty.applyAll (before ++ [.run])).1.queue.line = [] := by
      subst hsplit
      have hidle : ({ (empty.applyAll before).1 with events := #[] } : Executor).Idles :=
        (Sound.of_prefix hnames).1.idles
      rw [applyAll_append]
      exact RunQueue.line_of_fetch hidle.fetch_eq
    rw [List.append_cons] at hsplit
    subst hsplit
    obtain ⟨history, hreaches⟩ := Stage.reaches_between hnames
    have ledger := (Sound.of_prefix hnames).1.ledger
    rw [List.append_nil] at ledger
    exact ⟨history, hreaches, fun job hjob ↦
      ((Stage.fits_start hnames).reaches hreaches).rested rfl hline ledger hjob⟩
  bounded := by
    rw [← List.append_nil operations] at hnames
    exact Nat.le_trans (Nat.le_add_left _ _) (Sound.of_prefix hnames).2

/-- A task that parks, spawns and wakes, and one that is held at first and wakes the other. -/
def relay : List Operation :=
  [.spawn "first" [.park, .spawn "third" [.yield .twice], .wake true "second"],
    .prepare "second" [.wake false "first", .park, .idle], .run, .runHeld "second", .run,
    .wake false "second", .run]

theorem workKept_relay : ((jobs relay).map Job.name).Nodup ∧ WorkKept relay :=
  ⟨by decide, workKept (by decide)⟩

end Lifecycle.Executor
