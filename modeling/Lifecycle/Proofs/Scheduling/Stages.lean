import Lifecycle.Scheduling.Executor
import Mathlib.Computability.StateTransition

/-!
# Executors, stage by stage

An executor goes from one operation to the next in stages: a task does a step, the head of the line
is fetched, or an operation begins. A stage has all that an observer could find in the middle of a
run, and what happened to the tasks so far. Whatever a sequence of operations makes of an executor
is reached through such stages.
-/

namespace Lifecycle.Executor

open StateTransition

/-- What may happen to a task. -/
inductive Incident where
  /-- It is put in the line, as it is spawned or later on. -/
  | scheduled
  | began
  /-- A waker of it is used, whether or not that has any effect. -/
  | woken
  | ended
  deriving DecidableEq, Repr

/-- What happened to the tasks, in order. -/
abbrev History := List (TaskId × Incident)

/-- What happened to one task. -/
def heard (id : TaskId) (history : History) : List Incident :=
  (history.filter (·.1 = id)).map Prod.snd

/-- What happens when the waker under a name is used. -/
def delivered (executor : Executor) (name : String) : History :=
  match executor.wakers.lookup name with
  | some id => [(id, .woken)]
  | none => []

/-- Where an executor is in a sequence of operations. -/
structure Stage where
  executor : Executor
  /-- The task that runs, with the steps that are left of it. -/
  busy : Option (TaskId × Task)
  /-- The line is to be emptied. -/
  draining : Bool
  /-- The operations that have not begun. -/
  agenda : List Operation
  history : History

namespace Stage

/-- No operation is under way. -/
def between (executor : Executor) (agenda : List Operation) (history : History) : Stage :=
  ⟨executor, none, false, agenda, history⟩

def start (operations : List Operation) : Stage := between empty operations []

/-- A running task does its next step, or ends. -/
def proceed (stage : Stage) (id : TaskId) (task : Task) : Stage :=
  match task.steps with
  | [] =>
    { stage with
      executor := (stage.executor.emit (.ended task.name)).finish id
      busy := none
      history := stage.history ++ [(id, .ended)] }
  | step :: rest =>
    let executor := stage.executor.emit (.reached task.name task.index)
    let left : Task := ⟨task.name, task.index + 1, rest⟩
    match step with
    | .yield how =>
      let queue := how.count.repeat (fun queue ↦ queue.wake id) executor.queue
      { stage with
        executor := ({ executor with queue }.suspend id left).1
        busy := none
        history := stage.history ++ List.replicate how.count (id, .woken) }
    | .park =>
      { stage with
        executor := ((executor.leaveWaker task.name id).suspend id left).1
        busy := none }
    | .wake keep target =>
      let (woken, found) := executor.wake keep target
      { stage with
        executor := woken.emit (.woke task.name keep target found)
        busy := some (id, left)
        history := stage.history ++ executor.delivered target }
    | .spawn other steps =>
      { stage with
        executor := executor.spawn other steps
        busy := some (id, left)
        history := stage.history ++ [(executor.queue.next, .scheduled)] }
    | .idle => { stage with executor, busy := some (id, left) }

/-- A task that the queue marks as running begins to. -/
def commence (stage : Stage) (id : TaskId) : Stage :=
  match stage.executor.tasks[id]? with
  | some task =>
    { stage with busy := some (id, task), history := stage.history ++ [(id, .began)] }
  | none =>
    { stage with
      executor := stage.executor.finish id
      history := stage.history ++ [(id, .ended)] }

/-- The head of the line is taken, if there is one. -/
def fetch (stage : Stage) : Stage :=
  match stage.executor.queue.fetch? with
  | none => { stage with draining := false }
  | some (fetched, queue) =>
    let executor := { stage.executor with queue }.emit (.logged .taskFetched)
    match fetched with
    | .toRun id => { stage with executor }.commence id
    | .toClose id =>
      { stage with executor := executor.finish id, history := stage.history ++ [(id, .ended)] }

/-- An operation begins, and is over at once unless it runs tasks. -/
def take (stage : Stage) : Operation → Stage
  | .spawn name steps =>
    { stage with
      executor := stage.executor.spawn name steps
      history := stage.history ++ [(stage.executor.queue.next, .scheduled)] }
  | .prepare name steps =>
    { stage with
      executor := stage.executor.prepare name steps
      history := stage.history ++ (stage.executor.held.lookup name).toList.map (·, .ended) }
  | .schedule name =>
    match stage.executor.takeHeld? name with
    | none => stage
    | some (id, executor) =>
      { stage with
        executor := { executor with queue := executor.queue.schedule id }
        history := stage.history ++ [(id, .scheduled)] }
  | .runHeld name =>
    match stage.executor.takeHeld? name with
    | none => stage
    | some (id, executor) =>
      { stage with executor := { executor with queue := executor.queue.start id } }.commence id
  | .run => { stage with draining := true }
  | .wake keep name =>
    { stage with
      executor := (stage.executor.wake keep name).1
      history := stage.history ++ stage.executor.delivered name }
  | .other => stage

/-- The next stage. There is none after the last operation. -/
def advance (stage : Stage) : Option Stage :=
  match stage.busy, stage.draining, stage.agenda with
  | some (id, task), _, _ => some (stage.proceed id task)
  | none, true, _ => some stage.fetch
  | none, false, operation :: agenda =>
    let executor := { stage.executor with events := #[] }
    some ({ stage with executor, agenda }.take operation)
  | none, false, [] => none

/-! ## What is reached -/

variable (executor : Executor) (draining : Bool) (agenda : List Operation) (history : History)

/-- A run of a task, step by step. -/
theorem reaches_perform (id : TaskId) (name : String) (index : Nat) (steps : List Step) :
    ∃ later, Reaches advance ⟨executor, some (id, ⟨name, index, steps⟩), draining, agenda, history⟩
      ⟨(executor.perform id name index steps).1, none, draining, agenda, later⟩ := by
  induction steps generalizing executor index history with
  | nil => exact ⟨_, .single rfl⟩
  | cons step rest ih =>
    cases step with
    | yield how => exact ⟨_, .single rfl⟩
    | park => exact ⟨_, .single rfl⟩
    | wake keep target =>
      obtain ⟨later, hreaches⟩ := ih _ _ _
      exact ⟨later, .head rfl hreaches⟩
    | spawn other steps =>
      obtain ⟨later, hreaches⟩ := ih _ _ _
      exact ⟨later, .head rfl hreaches⟩
    | idle =>
      obtain ⟨later, hreaches⟩ := ih _ _ _
      exact ⟨later, .head rfl hreaches⟩

theorem reaches_run (id : TaskId) :
    ∃ later, Reaches advance (commence ⟨executor, none, draining, agenda, history⟩ id)
      ⟨(executor.run id).1, none, draining, agenda, later⟩ := by
  simp only [commence, Executor.run]
  cases executor.tasks[id]? with
  | none => exact ⟨_, .refl⟩
  | some task => exact reaches_perform ..

theorem reaches_runUpTo (limit : Nat) :
    ∃ later, Reaches advance ⟨executor, none, true, agenda, history⟩
      ⟨(runUpTo limit executor).1, none, true, agenda, later⟩ := by
  induction limit generalizing executor history with
  | zero => exact ⟨history, .refl⟩
  | succ limit ih =>
    have hfetched : Reaches advance ⟨executor, none, true, agenda, history⟩
        (fetch ⟨executor, none, true, agenda, history⟩) := .single rfl
    unfold runUpTo
    unfold fetch at hfetched
    cases hfetch : executor.queue.fetch? with
    | none => exact ⟨history, .refl⟩
    | some entry =>
      obtain ⟨fetched, queue⟩ := entry
      simp only [hfetch] at hfetched
      cases fetched with
      | toRun id =>
        obtain ⟨middle, hrun⟩ := reaches_run _ true agenda history id
        obtain ⟨later, hreaches⟩ := ih _ middle
        exact ⟨later, (hfetched.trans hrun).trans hreaches⟩
      | toClose id =>
        obtain ⟨later, hreaches⟩ := ih _ _
        exact ⟨later, hfetched.trans hreaches⟩

/-- The line is emptied if that comes to an end. -/
theorem reaches_drain (hidle : executor.drain.1.queue.fetch? = none) :
    ∃ later, Reaches advance ⟨executor, none, true, agenda, history⟩
      (between executor.drain.1 agenda later) := by
  obtain ⟨later, hreaches⟩ := reaches_runUpTo executor agenda history executor.work
  refine ⟨later, hreaches.tail ?_⟩
  change some (fetch _) = some _
  unfold fetch
  change (runUpTo executor.work executor).1.queue.fetch? = none at hidle
  simp only [hidle]
  rfl

/-- Once an operation begins, it comes to what is made of it. -/
theorem reaches_apply (operation : Operation)
    (hidle : operation = .run → executor.drain.1.queue.fetch? = none) :
    ∃ later, Reaches advance (take (between executor agenda history) operation)
      (between (executor.apply operation).1 agenda later) := by
  cases operation with
  | spawn _ _ | prepare _ _ | wake _ _ | other => exact ⟨_, .refl⟩
  | schedule name =>
    simp only [take, Executor.apply, between]
    cases executor.takeHeld? name with
    | none => exact ⟨_, .refl⟩
    | some entry => exact ⟨_, .refl⟩
  | runHeld name =>
    simp only [take, Executor.apply, between]
    cases executor.takeHeld? name with
    | none => exact ⟨_, .refl⟩
    | some entry => exact reaches_run _ false agenda history entry.1
  | run => exact reaches_drain executor agenda history (hidle rfl)

end Stage

end Lifecycle.Executor
