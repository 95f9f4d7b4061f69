import Lifecycle.Proofs.Scheduling.Jobs

/-!
# The ledger of an executor

Which jobs are there, how far each has come, and what was seen of it so far: of jobs under different
names, one is either still ahead, or a task has done the steps that are seen, or all of its course
is seen. No job is lost on the way: the ledger is kept when a task does a step, when a job comes on
board, and when a task ends.
-/

namespace Lifecycle.Executor

variable {declared upcoming : List Job} {tasks : Std.ExtTreeMap TaskId Task} {id : TaskId}
  {history fresh : List Event} {task : Task} {job : Job} {name : String} {index : Nat}
  {steps rest : List Step} {step : Step}

/-- A job that no task has: it comes later, or some task is going to spawn it. -/
def IsAhead (upcoming : List Job) (tasks : Std.ExtTreeMap TaskId Task) (job : Job) : Prop :=
  job ∈ upcoming ∨
    ∃ (id : TaskId) (task : Task), tasks[id]? = some task ∧ job ∈ stepsJobs task.steps

/-- What was seen of the declared jobs fits the tasks that are left. -/
structure Ledger (declared upcoming : List Job) (tasks : Std.ExtTreeMap TaskId Task)
    (history : List Event) : Prop where
  unique {first second : Job} (hfirst : first ∈ declared) (hsecond : second ∈ declared)
    (hname : first.name = second.name) : first = second
  distinct : ((aboard tasks ++ upcoming).map Job.name).Nodup
  ahead {job : Job} (hahead : IsAhead upcoming tasks job) :
    job ∈ declared ∧ seen job.name history = []
  begun {id : TaskId} {task : Task} (htask : tasks[id]? = some task) :
    ∃ done, ⟨task.name, done ++ task.steps⟩ ∈ declared ∧ done.length = task.index ∧
      seen task.name history = course task.name 0 done
  fate {job : Job} (hdeclared : job ∈ declared) :
    IsAhead upcoming tasks job ∨
      (∃ (id : TaskId) (task : Task), tasks[id]? = some task ∧ task.name = job.name) ∨
      seen job.name history = job.course

/-- Some events show this of one task, and nothing of any other. -/
structure Shows (fresh : List Event) (name : String) (trace : List Event) : Prop where
  own : seen name fresh = trace
  others {other : String} (hne : other ≠ name) : seen other fresh = []

section Shows

variable {trace : List Event}

theorem Shows.seen_own (shown : Shows fresh name trace) (history : List Event) :
    seen name (history ++ fresh) = seen name history ++ trace := by
  rw [seen_append, shown.own]

theorem Shows.seen_other (shown : Shows fresh name trace) (history : List Event) {other : String}
    (hne : other ≠ name) : seen other (history ++ fresh) = seen other history := by
  rw [seen_append, shown.others hne, List.append_nil]

end Shows

theorem isAhead_append_iff {front : List Job} :
    IsAhead (front ++ upcoming) tasks job ↔ job ∈ front ∨ IsAhead upcoming tasks job := by
  rw [IsAhead, List.mem_append, or_assoc]
  rfl

/-- What a task is going to spawn is ahead, and so is what is ahead without it. -/
theorem isAhead_insert_iff :
    IsAhead upcoming (tasks.insert id task) job ↔
      job ∈ stepsJobs task.steps ∨ IsAhead upcoming (tasks.erase id) job := by
  have hentries : (∃ (other : TaskId) (spawner : Task),
        (tasks.insert id task)[other]? = some spawner ∧ job ∈ stepsJobs spawner.steps) ↔
      job ∈ stepsJobs task.steps ∨ ∃ (other : TaskId) (spawner : Task),
        (tasks.erase id)[other]? = some spawner ∧ job ∈ stepsJobs spawner.steps := by
    constructor
    · rintro ⟨other, spawner, hspawner, hmem⟩
      rw [Std.ExtTreeMap.getElem?_insert] at hspawner
      split at hspawner
      · rw [Option.some_inj] at hspawner
        exact .inl (hspawner ▸ hmem)
      · next hne =>
        refine .inr ⟨other, spawner, ?_, hmem⟩
        rwa [Std.ExtTreeMap.getElem?_erase, if_neg hne]
    · rintro (hmem | ⟨other, spawner, hspawner, hmem⟩)
      · exact ⟨id, task, Std.ExtTreeMap.getElem?_insert_self, hmem⟩
      · rw [Std.ExtTreeMap.getElem?_erase] at hspawner
        split at hspawner
        · cases hspawner
        · next hne =>
          refine ⟨other, spawner, ?_, hmem⟩
          rwa [Std.ExtTreeMap.getElem?_insert, if_neg hne]
  rw [IsAhead, IsAhead, hentries, or_left_comm]

theorem isAhead_of_getElem? (htask : tasks[id]? = some task) :
    IsAhead upcoming tasks job ↔
      job ∈ stepsJobs task.steps ∨ IsAhead upcoming (tasks.erase id) job := by
  rw [← isAhead_insert_iff, insert_of_getElem? htask]

namespace Ledger

section Names

variable (ledger : Ledger declared upcoming tasks history)

include ledger

/-- Nobody else goes by the name of a task. -/
theorem nodup_of_task (htask : tasks[id]? = some task) :
    (task.name ::
      (stepsJobs task.steps ++ aboard (tasks.erase id) ++ upcoming).map Job.name).Nodup := by
  have hperm := ((aboard_of_getElem? htask).append_right upcoming).map Job.name
  have hnodup := hperm.nodup_iff.1 ledger.distinct
  simpa [Task.jobs] using hnodup

theorem name_ne_of_ahead (htask : tasks[id]? = some task) (hahead : IsAhead upcoming tasks job) :
    job.name ≠ task.name := by
  intro hname
  refine (List.nodup_cons.1 (ledger.nodup_of_task htask)).1 (hname ▸ List.mem_map_of_mem ?_)
  obtain hlater | ⟨other, spawner, hspawner, hmem⟩ := hahead
  · exact List.mem_append_right _ hlater
  · refine List.mem_append_left _ (List.mem_append.2 ?_)
    by_cases heq : other = id
    · rw [heq, htask, Option.some_inj] at hspawner
      exact .inl (hspawner ▸ hmem)
    · refine .inr (mem_aboard_iff.2 ⟨other, spawner, ?_, List.mem_cons_of_mem _ hmem⟩)
      rwa [Std.ExtTreeMap.getElem?_erase, if_neg]
      simpa using Ne.symm heq

theorem id_eq_of_name_eq {other : TaskId} {second : Task} (htask : tasks[id]? = some task)
    (hother : tasks[other]? = some second) (hname : second.name = task.name) : other = id := by
  by_contra hne
  refine (List.nodup_cons.1 (ledger.nodup_of_task htask)).1 (hname ▸ List.mem_map.2
    ⟨⟨second.name, second.steps⟩, List.mem_append_left _ (List.mem_append_right _ ?_), rfl⟩)
  refine mem_aboard_iff.2 ⟨other, second, ?_, List.mem_cons_self⟩
  rwa [Std.ExtTreeMap.getElem?_erase, if_neg]
  simpa using Ne.symm hne

end Names

/-! ## What one task does -/

section Change

variable {trace : List Event} {later : List Job} {left : Std.ExtTreeMap TaskId Task}

/-- Only the entries of the task that shows something have to be looked at. -/
theorem of_task (ledger : Ledger declared upcoming tasks history) (htask : tasks[id]? = some task)
    (shown : Shows fresh task.name trace)
    (hothers : ∀ other, other ≠ id → left[other]? = tasks[other]?)
    (hdistinct : ((aboard left ++ later).map Job.name).Nodup)
    (hahead : ∀ job, IsAhead later left job ↔ IsAhead upcoming tasks job)
    (hbegun : ∀ rest, left[id]? = some rest → rest.name = task.name ∧
      ∃ done, ⟨task.name, done ++ rest.steps⟩ ∈ declared ∧ done.length = rest.index ∧
        seen task.name history ++ trace = course task.name 0 done)
    (hfate : ∀ job ∈ declared, job.name = task.name →
      (∃ rest, left[id]? = some rest) ∨ seen task.name history ++ trace = job.course) :
    Ledger declared later left (history ++ fresh) where
  unique := ledger.unique
  distinct := hdistinct
  ahead {job} hlater := by
    have hne := ledger.name_ne_of_ahead htask ((hahead job).1 hlater)
    obtain ⟨hdeclared, hseen⟩ := ledger.ahead ((hahead job).1 hlater)
    exact ⟨hdeclared, (shown.seen_other history hne).trans hseen⟩
  begun {other rest} hrest := by
    by_cases heq : other = id
    · subst heq
      obtain ⟨hname, done, hdeclared, hlength, hcourse⟩ := hbegun rest hrest
      rw [hname]
      exact ⟨done, hdeclared, hlength, (shown.seen_own history).trans hcourse⟩
    · rw [hothers other heq] at hrest
      have hne : rest.name ≠ task.name := fun h ↦ heq (ledger.id_eq_of_name_eq htask hrest h)
      rw [shown.seen_other history hne]
      exact ledger.begun hrest
  fate {job} hdeclared := by
    by_cases hname : job.name = task.name
    · obtain ⟨rest, hrest⟩ | hover := hfate job hdeclared hname
      · exact .inr (.inl ⟨id, rest, hrest, (hbegun rest hrest).1.trans hname.symm⟩)
      · rw [hname, shown.seen_own]
        exact .inr (.inr hover)
    · rw [shown.seen_other history hname]
      refine (ledger.fate hdeclared).imp (hahead job).2 (Or.imp_left ?_)
      rintro ⟨other, working, hworking, hsame⟩
      have hne : other ≠ id := by
        rintro rfl
        rw [htask, Option.some_inj] at hworking
        exact hname (hsame ▸ hworking ▸ rfl)
      exact ⟨other, working, (hothers other hne).trans hworking, hsame⟩

end Change

/-- A job comes on board, as a task that has done nothing yet. -/
theorem enter
    (ledger : Ledger declared (⟨name, steps⟩ :: stepsJobs steps ++ upcoming) tasks history)
    (hnew : tasks[id]? = none) :
    Ledger declared upcoming (tasks.insert id ⟨name, 0, steps⟩) history := by
  have hself : (tasks.insert id ⟨name, 0, steps⟩)[id]? = some ⟨name, 0, steps⟩ :=
    Std.ExtTreeMap.getElem?_insert_self
  -- all that was ahead still is, but for the job itself
  have hspawned (job : Job) : IsAhead (⟨name, steps⟩ :: stepsJobs steps ++ upcoming) tasks job ↔
      job = ⟨name, steps⟩ ∨ IsAhead upcoming (tasks.insert id ⟨name, 0, steps⟩) job := by
    rw [isAhead_insert_iff, erase_of_getElem?_eq_none hnew, isAhead_append_iff, List.mem_cons,
      or_assoc]
  constructor
  case unique => exact ledger.unique
  case distinct =>
    refine ((((aboard_insert ..).append_right _).map _).trans ?_).nodup_iff.2 ledger.distinct
    simp only [Task.jobs, erase_of_getElem?_eq_none hnew, List.map_append, List.map_cons,
      List.perm_iff_count, List.count_append, List.count_cons]
    omega
  case ahead => exact fun hahead ↦ ledger.ahead ((hspawned _).2 (.inr hahead))
  case begun =>
    intro other task htask
    rw [Std.ExtTreeMap.getElem?_insert] at htask
    split at htask
    · rw [Option.some_inj] at htask
      subst htask
      obtain ⟨hdeclared, hseen⟩ := ledger.ahead (.inl List.mem_cons_self)
      exact ⟨[], hdeclared, rfl, hseen⟩
    · exact ledger.begun htask
  case fate =>
    intro job hdeclared
    obtain hahead | ⟨other, task, htask, hname⟩ | hover := ledger.fate hdeclared
    · obtain rfl | hahead := (hspawned job).1 hahead
      · exact .inr (.inl ⟨id, _, hself, rfl⟩)
      · exact .inl hahead
    · refine .inr (.inl ⟨other, task, ?_, hname⟩)
      rw [Std.ExtTreeMap.getElem?_insert, if_neg, htask]
      simpa using fun heq : id = other ↦ by simp [← heq, hnew] at htask
    · exact .inr (.inr hover)

variable (ledger : Ledger declared upcoming tasks history)

include ledger

/-- A task does a step, and the jobs that are spawned by it come next. -/
theorem advance (htask : tasks[id]? = some ⟨name, index, step :: rest⟩)
    (shown : Shows fresh name (step.trace name index)) :
    Ledger declared (step.jobs ++ upcoming) (tasks.insert id ⟨name, index + 1, rest⟩)
      (history ++ fresh) := by
  have hself : (tasks.insert id ⟨name, index + 1, rest⟩)[id]? = some ⟨name, index + 1, rest⟩ :=
    Std.ExtTreeMap.getElem?_insert_self
  refine ledger.of_task htask shown (fun other hne ↦ ?_) ?_ (fun job ↦ ?_)
    (fun left hleft ↦ ?_) fun job _ _ ↦ .inl ⟨_, hself⟩
  · rw [Std.ExtTreeMap.getElem?_insert, if_neg]
    simpa using hne.symm
  · have hnodup := ledger.nodup_of_task htask
    rw [stepsJobs] at hnodup
    refine ((((aboard_insert ..).append_right _).map _).trans ?_).nodup_iff.2 hnodup
    simp only [Task.jobs, List.map_append, List.map_cons, List.perm_iff_count, List.count_append,
      List.count_cons]
    omega
  · rw [isAhead_append_iff, isAhead_insert_iff, isAhead_of_getElem? htask, stepsJobs,
      List.mem_append, or_assoc]
  · rw [hself, Option.some_inj] at hleft
    subst hleft
    obtain ⟨done, hdeclared, hlength, hcourse⟩ := ledger.begun htask
    refine ⟨rfl, done ++ [step], ?_, ?_, ?_⟩
    · simpa using hdeclared
    · rw [List.length_append, hlength, List.length_singleton]
    · rw [course_concat, Nat.zero_add, hlength, ← hcourse]

/-- A task ends. -/
theorem finish (htask : tasks[id]? = some ⟨name, index, []⟩)
    (shown : Shows fresh name [.ended name]) :
    Ledger declared upcoming (tasks.erase id) (history ++ fresh) := by
  have hself : (tasks.erase id)[id]? = none := Std.ExtTreeMap.getElem?_erase_self
  refine ledger.of_task htask shown (fun other hne ↦ ?_) ?_ (fun job ↦ ?_)
    (fun left hleft ↦ by rw [hself] at hleft; cases hleft) fun job hdeclared hname ↦ .inr ?_
  · rw [Std.ExtTreeMap.getElem?_erase, if_neg]
    simpa using hne.symm
  · exact (List.nodup_cons.1 (ledger.nodup_of_task htask)).2
  · exact ((isAhead_of_getElem? htask).trans (or_iff_right List.not_mem_nil)).symm
  · obtain ⟨done, hdone, -, hcourse⟩ := ledger.begun htask
    rw [List.append_nil] at hdone
    have hjob : job = ⟨name, done⟩ := ledger.unique hdeclared hdone hname
    rw [hcourse, hjob]
    rfl

theorem quiet (hquiet : ∀ name, seen name fresh = []) :
    Ledger declared upcoming tasks (history ++ fresh) := by
  have hsame (name : String) : seen name (history ++ fresh) = seen name history := by
    rw [seen_append, hquiet, List.append_nil]
  constructor
  case unique => exact ledger.unique
  case distinct => exact ledger.distinct
  case ahead => exact fun hahead ↦ (hsame _).symm ▸ ledger.ahead hahead
  case begun => exact fun htask ↦ (hsame _).symm ▸ ledger.begun htask
  case fate => exact fun hdeclared ↦ (hsame _).symm ▸ ledger.fate hdeclared

end Ledger

end Lifecycle.Executor
