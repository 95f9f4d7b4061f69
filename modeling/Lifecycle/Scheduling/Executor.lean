import Lifecycle.Log.Notice
import Lifecycle.Scheduling.RunQueue
import Lifecycle.Scheduling.SelfWake

/-!
# An executor of scripted tasks

Tasks here are lists of steps: a task gives way, parks, wakes others or spawns new ones. Running
a task performs steps until one makes it give way, and the executor runs tasks until its queue is
empty. `Executor.work` counts the steps that are still to come; every run of a task uses up some,
which is why `drain` comes to an end.
-/

namespace Lifecycle

namespace Executor

inductive Step where
  /-- Gives way to the others in the queue. -/
  | yield (how : SelfWake)
  /-- Leaves a waker under the task's name and waits for it to be used. -/
  | park
  /-- Uses the waker under a name, and removes it unless it is kept. -/
  | wake (keep : Bool) (target : String)
  | spawn (name : String) (steps : List Step)
  /-- Does nothing. -/
  | idle
  deriving Inhabited

mutual

/-- The runs that a step can be the cause of. -/
def Step.work : Step → Nat
  | .spawn _ steps => 2 + stepsWork steps
  | _ => 1

/-- The runs that a list of steps can be the cause of. -/
def stepsWork : List Step → Nat
  | [] => 0
  | step :: rest => step.work + stepsWork rest

end

/-- What an observer sees of the tasks. -/
inductive Event where
  /-- A task is about to perform the step with an index. -/
  | reached (task : String) (index : Nat)
  | ended (task : String)
  /-- A task used a waker, if there was one. -/
  | woke (task : String) (keep : Bool) (target : String) (found : Bool)
  | logged (notice : Notice)
  deriving DecidableEq, Repr

/-- A task that has not ended. -/
structure Task where
  name : String
  /-- Index of the first step that is left. -/
  index : Nat
  steps : List Step

end Executor

structure Executor where
  queue : RunQueue
  tasks : Std.ExtTreeMap TaskId Executor.Task
  /-- Wakers of parked tasks, by the names of the tasks. -/
  wakers : List (String × TaskId)
  /-- Tasks that were prepared and not scheduled, by their names. -/
  held : List (String × TaskId)
  /-- What was seen so far, in order. -/
  events : Array Executor.Event

namespace Executor

def empty : Executor := ⟨.empty, ∅, [], [], #[]⟩

def emit (executor : Executor) (event : Event) : Executor :=
  { executor with events := executor.events.push event }

/-- The runs that the unfinished tasks can be the cause of. -/
def work (executor : Executor) : Nat :=
  executor.tasks.toList.foldr (fun entry work ↦ 1 + stepsWork entry.2.steps + work) 0

/-- Entries under other names. -/
def others (name : String) (entries : List (String × TaskId)) : List (String × TaskId) :=
  entries.filter (·.1 ≠ name)

/-! ## Single tasks -/

def spawn (executor : Executor) (name : String) (steps : List Step) : Executor :=
  let (task, queue) := executor.queue.spawn
  { executor with queue, tasks := executor.tasks.insert task ⟨name, 0, steps⟩ }

/-- Forgets a task that will not run any more. -/
def finish (executor : Executor) (task : TaskId) : Executor :=
  { executor with
    queue := executor.queue.finish task
    tasks := executor.tasks.erase task }

/-- Prepares a task and holds it under its name, in place of one held there before. -/
def prepare (executor : Executor) (name : String) (steps : List Step) : Executor :=
  let (task, queue) := executor.queue.prepare
  let prepared :=
    { executor with
      queue
      tasks := executor.tasks.insert task ⟨name, 0, steps⟩
      held := (name, task) :: others name executor.held }
  match executor.held.lookup name with
  | some replaced => prepared.finish replaced
  | none => prepared

/-- Takes the task held under a name. -/
def takeHeld? (executor : Executor) (name : String) : Option (TaskId × Executor) :=
  (executor.held.lookup name).map fun task ↦
    (task, { executor with held := others name executor.held })

/-- Uses the waker under a name; says whether there is one. -/
def wake (executor : Executor) (keep : Bool) (name : String) : Executor × Bool :=
  match executor.wakers.lookup name with
  | none => (executor, false)
  | some task =>
    ({ executor with
        queue := executor.queue.wake task
        wakers := if keep then executor.wakers else others name executor.wakers },
      true)

/-- Leaves a waker of a task under a name. A waker that was there is lost. -/
def leaveWaker (executor : Executor) (name : String) (task : TaskId) : Executor :=
  { executor with
    queue :=
      match executor.wakers.lookup name with
      | some replaced => executor.queue.forsake replaced
      | none => executor.queue
    wakers := (name, task) :: others name executor.wakers }

/-- Suspends a task with the steps that are left; says whether it is in the queue again. -/
def suspend (executor : Executor) (task : TaskId) (left : Task) : Executor × Bool :=
  let (queue, requeued) := executor.queue.suspend task
  ({ executor with queue, tasks := executor.tasks.insert task left }, requeued)

/-- Performs the steps of a running task until it gives way or ends; says whether it is in the
queue again. -/
def perform (executor : Executor) (task : TaskId) (name : String) (index : Nat) :
    List Step → Executor × Bool
  | [] => ((executor.emit (.ended name)).finish task, false)
  | step :: rest =>
    let executor := executor.emit (.reached name index)
    match step with
    | .yield how =>
      let queue := how.count.repeat (fun queue ↦ queue.wake task) executor.queue
      { executor with queue }.suspend task ⟨name, index + 1, rest⟩
    | .park => (executor.leaveWaker name task).suspend task ⟨name, index + 1, rest⟩
    | .wake keep target =>
      let (executor, found) := executor.wake keep target
      (executor.emit (.woke name keep target found)).perform task name (index + 1) rest
    | .spawn other steps => (executor.spawn other steps).perform task name (index + 1) rest
    | .idle => executor.perform task name (index + 1) rest

/-- Runs a task that the queue marks as running. -/
def run (executor : Executor) (task : TaskId) : Executor × Bool :=
  match executor.tasks[task]? with
  | some found => executor.perform task found.name found.index found.steps
  | none => (executor.finish task, false)

/-! ## All tasks -/

/-- Runs at most `limit` tasks from the head of the queue and counts them. -/
def runUpTo : Nat → Executor → Executor × Nat
  | 0, executor => (executor, 0)
  | limit + 1, executor =>
    match executor.queue.fetch? with
    | none => (executor, 0)
    | some (fetched, queue) =>
      let executor := { executor with queue }.emit (.logged .taskFetched)
      let executor :=
        match fetched with
        | .toRun task => (executor.run task).1
        | .toClose task => executor.finish task
      let (executor, count) := runUpTo limit executor
      (executor, count + 1)

/-- Runs tasks until the queue is empty and counts the runs. -/
def drain (executor : Executor) : Executor × Nat := runUpTo executor.work executor

/-! ## Sequences of operations -/

inductive Operation where
  | spawn (name : String) (steps : List Step)
  | prepare (name : String) (steps : List Step)
  /-- Puts a held task in the queue. -/
  | schedule (name : String)
  /-- Runs a held task past the queue. -/
  | runHeld (name : String)
  | run
  | wake (keep : Bool) (name : String)
  | other

inductive Result where
  | done
  | noTask
  | rescheduled (again : Bool)
  | ran (count : Nat)
  | woke (found : Bool)
  | unknown
  deriving DecidableEq, Repr

def apply (executor : Executor) : Operation → Executor × Result
  | .spawn name steps => (executor.spawn name steps, .done)
  | .prepare name steps => (executor.prepare name steps, .done)
  | .schedule name =>
    match executor.takeHeld? name with
    | none => (executor, .noTask)
    | some (task, executor) =>
      ({ executor with queue := executor.queue.schedule task }, .done)
  | .runHeld name =>
    match executor.takeHeld? name with
    | none => (executor, .noTask)
    | some (task, executor) =>
      let (executor, again) := { executor with queue := executor.queue.start task }.run task
      (executor, .rescheduled again)
  | .run =>
    let (executor, count) := executor.drain
    (executor, .ran count)
  | .wake keep name =>
    let (executor, found) := executor.wake keep name
    (executor, .woke found)
  | .other => (executor, .unknown)

/-- The result of one operation and what was seen during it. -/
structure Report where
  result : Result
  events : List Event

/-- The events that an observer with a log threshold sees. -/
def Report.shown (report : Report) (threshold : Log.Threshold) : List Event :=
  report.events.filter fun
    | .logged notice => notice.passes threshold
    | _ => true

/-- Applies operations in order and reports on each. -/
def applyAll (executor : Executor) : List Operation → Executor × List Report
  | [] => (executor, [])
  | operation :: rest =>
    let (executor, result) := { executor with events := #[] }.apply operation
    let (last, reports) := executor.applyAll rest
    (last, ⟨result, executor.events.toList⟩ :: reports)

end Executor

end Lifecycle
