import Std.Data.ExtTreeMap

/-!
# Run queues

A run queue keeps the order in which tasks are to run and, for every task, where it stands. A task
is in the queue at most once: waking a task that is queued already changes nothing, and waking it
while it runs puts it in the queue once, after that run.

A task that was woken during its own run goes to the tail; all others enter at the head. A
suspended task that nobody can wake any more is put in the queue a last time, to be thrown away.
-/

namespace Lifecycle

abbrev TaskId := Nat

/-- Where a task stands. -/
inductive Standing where
  /-- Prepared, and not yet given to the queue. -/
  | held
  /-- In the queue, to be run. -/
  | ready
  /-- In the queue, to be thrown away. -/
  | closing
  /-- Being run. -/
  | running (woken : Bool)
  /-- Waiting to be woken. -/
  | suspended
  | ended
  deriving DecidableEq, Repr

structure RunQueue where
  /-- The tasks in the queue, the head first. -/
  line : List TaskId
  standings : Std.ExtTreeMap TaskId Standing
  /-- The id of the next task. -/
  next : TaskId

namespace RunQueue

def empty : RunQueue := ⟨[], ∅, 0⟩

/-- Where a task stands; one that was never prepared counts as ended. -/
def standing (queue : RunQueue) (task : TaskId) : Standing :=
  queue.standings.getD task .ended

def place (queue : RunQueue) (task : TaskId) (standing : Standing) : RunQueue :=
  { queue with standings := queue.standings.insert task standing }

@[simp] theorem standing_empty (task : TaskId) : empty.standing task = .ended := by
  simp [standing, empty]

theorem standing_place (queue : RunQueue) (placed task : TaskId) (standing : Standing) :
    (queue.place placed standing).standing task =
      if placed = task then standing else queue.standing task := by
  simp [RunQueue.standing, place, Std.ExtTreeMap.getD_insert]

def pushHead (queue : RunQueue) (task : TaskId) : RunQueue :=
  { queue with line := task :: queue.line }

def pushTail (queue : RunQueue) (task : TaskId) : RunQueue :=
  { queue with line := queue.line ++ [task] }

/-- A new task that is not in the queue yet. -/
def prepare (queue : RunQueue) : TaskId × RunQueue :=
  (queue.next, { queue.place queue.next .held with next := queue.next + 1 })

/-- Puts a held task in the queue. -/
def schedule (queue : RunQueue) (task : TaskId) : RunQueue :=
  match queue.standing task with
  | .held => (queue.place task .ready).pushHead task
  | _ => queue

/-- A new task, in the queue at once. -/
def spawn (queue : RunQueue) : TaskId × RunQueue :=
  let (task, queue) := queue.prepare
  (task, queue.schedule task)

/-- Uses a waker of a task. -/
def wake (queue : RunQueue) (task : TaskId) : RunQueue :=
  match queue.standing task with
  | .suspended => (queue.place task .ready).pushHead task
  | .running _ => queue.place task (.running true)
  | _ => queue

/-- Loses the last waker of a task. -/
def forsake (queue : RunQueue) (task : TaskId) : RunQueue :=
  match queue.standing task with
  | .suspended => (queue.place task .closing).pushHead task
  | _ => queue

/-- Begins to run a held task, past the queue. -/
def start (queue : RunQueue) (task : TaskId) : RunQueue :=
  match queue.standing task with
  | .held => queue.place task (.running false)
  | _ => queue

/-- A task at the head of the queue: to be run, or to be thrown away. -/
inductive Fetched where
  | toRun (task : TaskId)
  | toClose (task : TaskId)
  deriving DecidableEq, Repr

/-- Takes the head of the queue. -/
def fetch? (queue : RunQueue) : Option (Fetched × RunQueue) :=
  match queue.line with
  | [] => none
  | task :: line =>
    let queue := { queue with line }
    match queue.standing task with
    | .closing => some (.toClose task, queue.place task .ended)
    | _ => some (.toRun task, queue.place task (.running false))

/-- Ends a run that left its task unfinished; says whether the task is in the queue again. -/
def suspend (queue : RunQueue) (task : TaskId) : RunQueue × Bool :=
  match queue.standing task with
  | .running true => ((queue.place task .ready).pushTail task, true)
  | _ => (queue.place task .suspended, false)

/-- Ends a task. -/
def finish (queue : RunQueue) (task : TaskId) : RunQueue := queue.place task .ended

end RunQueue

end Lifecycle
