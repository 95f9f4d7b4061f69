import Lifecycle.Scheduling.Executor
import Mathlib.Algebra.Order.Ring.Nat
import Mathlib.Data.List.Perm.Basic
import Mathlib.Data.List.Nodup

/-!
# The jobs of an executor

A job is what a task is given: a name and steps. The jobs on board are those of the unfinished
tasks, with the steps that are left of them, and all that these steps are going to spawn. Every job
costs at most one run for each step that pends and one more for its end. Its course is what is to be
seen of it.
-/

namespace Lifecycle.Executor

/-- A named list of steps. -/
structure Job where
  name : String
  steps : List Step

mutual

/-- The jobs that a step spawns, with those that they are going to spawn. -/
def Step.jobs : Step → List Job
  | .spawn name steps => ⟨name, steps⟩ :: stepsJobs steps
  | _ => []

/-- The jobs that some steps spawn, with those that they are going to spawn. -/
def stepsJobs : List Step → List Job
  | [] => []
  | step :: rest => step.jobs ++ stepsJobs rest

end

/-- The task gives way after this step. -/
def Step.pends : Step → Bool
  | .yield _ => true
  | .park => true
  | _ => false

/-- The runs of a job: one for each step that pends and one for the end. -/
def Job.runs (job : Job) : Nat := job.steps.countP Step.pends + 1

def cost (jobs : List Job) : Nat := (jobs.map Job.runs).sum

theorem cost_append (front back : List Job) : cost (front ++ back) = cost front + cost back := by
  simp [cost]

theorem cost_cons (job : Job) (rest : List Job) : cost (job :: rest) = job.runs + cost rest := rfl

theorem cost_perm {first second : List Job} (perm : first.Perm second) :
    cost first = cost second := (perm.map Job.runs).sum_nat

mutual

/-- Steps are worth the runs that they cost. -/
theorem cost_jobs_le_work (step : Step) :
    cost step.jobs + (if step.pends then 1 else 0) ≤ step.work := by
  cases step with
  | spawn name steps =>
    have hsteps := cost_stepsJobs_le_stepsWork steps
    simp only [Step.jobs, Step.work, Step.pends, cost_cons, Job.runs, Bool.false_eq_true, if_false]
    omega
  | yield _ | park | wake _ _ | idle => simp [Step.jobs, Step.work, Step.pends, cost]

theorem cost_stepsJobs_le_stepsWork (steps : List Step) :
    cost (stepsJobs steps) + steps.countP Step.pends ≤ stepsWork steps := by
  cases steps with
  | nil => simp [stepsJobs, stepsWork, cost]
  | cons step rest =>
    have hstep := cost_jobs_le_work step
    have hrest := cost_stepsJobs_le_stepsWork rest
    rw [stepsJobs, stepsWork, cost_append, List.countP_cons]
    omega

end

/-! ## Jobs on board -/

section Aboard

variable {tasks : Std.ExtTreeMap TaskId Task} {id other : TaskId} {task : Task} {job : Job}

/-- What is left of a task's job, and the jobs that it is going to spawn. -/
def Task.jobs (task : Task) : List Job := ⟨task.name, task.steps⟩ :: stepsJobs task.steps

def aboard (tasks : Std.ExtTreeMap TaskId Task) : List Job := tasks.toList.flatMap (·.2.jobs)

theorem nodup_toList (tasks : Std.ExtTreeMap TaskId Task) : tasks.toList.Nodup :=
  Std.ExtTreeMap.ordered_keys_toList.imp fun hlt heq ↦
    Nat.ne_of_lt (Nat.compare_eq_lt.1 hlt) (congrArg Prod.fst heq)

theorem mem_aboard_iff :
    job ∈ aboard tasks ↔
      ∃ (id : TaskId) (task : Task), tasks[id]? = some task ∧ job ∈ task.jobs := by
  simp [aboard, Std.ExtTreeMap.mem_toList_iff_getElem?_eq_some]

/-- A task is entered with its jobs, in place of one of that id. -/
theorem aboard_insert (tasks : Std.ExtTreeMap TaskId Task) (id : TaskId) (task : Task) :
    (aboard (tasks.insert id task)).Perm (task.jobs ++ aboard (tasks.erase id)) := by
  have hfresh : (id, task) ∉ (tasks.erase id).toList := by
    simp [Std.ExtTreeMap.mem_toList_iff_getElem?_eq_some]
  have hlist : (tasks.insert id task).toList.Perm ((id, task) :: (tasks.erase id).toList) := by
    refine (List.perm_ext_iff_of_nodup (nodup_toList _)
      (List.nodup_cons.2 ⟨hfresh, nodup_toList _⟩)).2 fun entry ↦ ?_
    obtain ⟨key, value⟩ := entry
    rw [List.mem_cons, Std.ExtTreeMap.mem_toList_iff_getElem?_eq_some,
      Std.ExtTreeMap.mem_toList_iff_getElem?_eq_some, Std.ExtTreeMap.getElem?_insert,
      Std.ExtTreeMap.getElem?_erase]
    grind
  exact hlist.flatMap_right _

theorem erase_insert (tasks : Std.ExtTreeMap TaskId Task) (id : TaskId) (task : Task) :
    (tasks.insert id task).erase id = tasks.erase id := by
  ext other left
  grind

theorem insert_of_getElem? (htask : tasks[id]? = some task) : tasks.insert id task = tasks := by
  ext other left
  grind

theorem aboard_of_getElem? (htask : tasks[id]? = some task) :
    (aboard tasks).Perm (task.jobs ++ aboard (tasks.erase id)) := by
  have hperm := aboard_insert tasks id task
  rwa [insert_of_getElem? htask] at hperm

theorem erase_of_getElem?_eq_none (hnone : tasks[id]? = none) : tasks.erase id = tasks := by
  ext other left
  grind

theorem cost_insert (tasks : Std.ExtTreeMap TaskId Task) (id : TaskId) (task : Task) :
    cost (aboard (tasks.insert id task)) = cost task.jobs + cost (aboard (tasks.erase id)) := by
  rw [cost_perm (aboard_insert tasks id task), cost_append]

/-- A step costs a run if it pends, and the jobs that it spawns cost theirs. -/
theorem cost_step (tasks : Std.ExtTreeMap TaskId Task) (id : TaskId) (name : String) (index : Nat)
    (step : Step) (rest : List Step) :
    cost (aboard (tasks.insert id ⟨name, index, step :: rest⟩)) =
      cost step.jobs + cost (aboard (tasks.insert id ⟨name, index + 1, rest⟩)) +
        (if step.pends then 1 else 0) := by
  simp only [cost_insert, Task.jobs, stepsJobs, cost_cons, cost_append, Job.runs, List.countP_cons]
  omega

theorem cost_end (tasks : Std.ExtTreeMap TaskId Task) (id : TaskId) (name : String) (index : Nat) :
    cost (aboard (tasks.insert id ⟨name, index, []⟩)) = 1 + cost (aboard (tasks.erase id)) :=
  cost_insert tasks id ⟨name, index, []⟩

/-- The work of an executor is worth the runs of the jobs on board. -/
theorem cost_aboard_le_work (executor : Executor) :
    cost (aboard executor.tasks) ≤ executor.work := by
  unfold aboard work
  induction executor.tasks.toList with
  | nil => exact Nat.le_refl _
  | cons entry rest ih =>
    have hsteps := cost_stepsJobs_le_stepsWork entry.2.steps
    rw [List.flatMap_cons, List.foldr_cons, cost_append, Task.jobs, cost_cons]
    unfold Job.runs
    dsimp only
    omega

end Aboard

/-! ## What is seen of a job -/

/-- What is seen of a step, were every waker found. -/
def Step.trace (name : String) (index : Nat) : Step → List Event
  | .wake keep target => [.reached name index, .woke name keep target true]
  | _ => [.reached name index]

/-- What is seen of steps, the first of which has an index. -/
def course (name : String) (index : Nat) : List Step → List Event
  | [] => []
  | step :: rest => step.trace name index ++ course name (index + 1) rest

def Job.course (job : Job) : List Event :=
  Executor.course job.name 0 job.steps ++ [.ended job.name]

/-- What an event shows of a task, whether or not a waker was found. -/
def Event.of (name : String) : Event → Option Event
  | .reached task index => if task = name then some (.reached task index) else none
  | .ended task => if task = name then some (.ended task) else none
  | .woke task keep target _ => if task = name then some (.woke task keep target true) else none
  | .logged _ => none

/-- What is seen of one task. -/
def seen (name : String) (events : List Event) : List Event := events.filterMap (Event.of name)

theorem seen_append (name : String) (front back : List Event) :
    seen name (front ++ back) = seen name front ++ seen name back := List.filterMap_append

theorem course_concat (name : String) (start : Nat) (steps : List Step) (step : Step) :
    course name start (steps ++ [step]) =
      course name start steps ++ step.trace name (start + steps.length) := by
  induction steps generalizing start with
  | nil => simp [course]
  | cons first rest ih => simp [course, ih, Nat.add_assoc, Nat.add_comm 1]

/-- The steps that were done are the beginning of a course. -/
theorem course_isPrefix (name : String) (front back : List Step) :
    course name 0 front <+: (⟨name, front ++ back⟩ : Job).course := by
  have hsplit (start : Nat) : course name start (front ++ back) =
      course name start front ++ course name (start + front.length) back := by
    induction front generalizing start with
    | nil => simp [course]
    | cons first rest ih => simp [course, ih, Nat.add_assoc, Nat.add_comm 1]
  unfold Job.course
  rw [hsplit, List.append_assoc]
  exact List.prefix_append _ _

end Lifecycle.Executor
