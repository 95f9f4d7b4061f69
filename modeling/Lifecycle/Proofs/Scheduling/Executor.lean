import Lifecycle.Proofs.Scheduling.Ledger
import Lifecycle.Proofs.Scheduling.RunQueue

/-!
# Where the tasks of an executor stand

While the jobs of an executor have different names, no task loses its last waker, and each stands
where its ledger has it. A task that runs is told with the steps that are left of it. Everything
that is done to a task while it runs, and all that brings a task on board, keeps this so.
-/

namespace Lifecycle.Executor

variable {declared upcoming : List Job} {past fresh : List Event} {busy : Option TaskId}
  {executor : Executor} {id other : TaskId} {task : Task} {name : String}
  {index : Nat} {steps rest : List Step} {step : Step} {standing : Standing} {found : Option Task}

/-! ## Standings -/

/-- How far a task has come that stands somewhere. -/
inductive Placed (declared : List Job) : Standing → Option Task → Prop where
  | held {name : String} {steps : List Step} : Placed declared .held (some ⟨name, 0, steps⟩)
  | ready {task : Task} : Placed declared .ready (some task)
  | running {woken : Bool} {task : Task} : Placed declared (.running woken) (some task)
  | suspended {name : String} {done rest : List Step}
      (hparked : ⟨name, done ++ .park :: rest⟩ ∈ declared) :
      Placed declared .suspended (some ⟨name, done.length + 1, rest⟩)
  | ended : Placed declared .ended none

theorem Placed.woken (placed : Placed declared standing found) :
    Placed declared (RunQueue.woken standing) found := by
  cases placed with
  | held => exact .held
  | ready | suspended => exact .ready
  | running => exact .running
  | ended => exact .ended

/-- The task under an id runs. -/
def Runs (queue : RunQueue) (id : TaskId) : Prop := ∃ woken, queue.standing id = .running woken

/-- The queue and the names fit the tasks, and the tasks fit what was seen of them. -/
structure Sound (declared upcoming : List Job) (past : List Event) (busy : Option TaskId)
    (executor : Executor) : Prop where
  full : executor.queue.Exact
  placed (id : TaskId) : Placed declared (executor.queue.standing id) executor.tasks[id]?
  runs_iff {id : TaskId} : Runs executor.queue id ↔ busy = some id
  held {name : String} {id : TaskId} (hmem : (name, id) ∈ executor.held) :
    executor.queue.standing id = .held ∧
      ∀ task, executor.tasks[id]? = some task → task.name = name
  waker {name : String} {id : TaskId} (hmem : (name, id) ∈ executor.wakers) :
    id < executor.queue.next ∧ ∀ task, executor.tasks[id]? = some task → task.name = name
  ledger : Ledger declared upcoming executor.tasks (past ++ executor.events.toList)

/-- The executor, with a task as it is during its run. -/
def holding (executor : Executor) (id : TaskId) (task : Task) : Executor :=
  { executor with tasks := executor.tasks.insert id task }

/-- The executor after some more events. -/
def noting (executor : Executor) (fresh : List Event) : Executor :=
  { executor with events := executor.events ++ fresh }

theorem toList_noting (executor : Executor) (fresh : List Event) :
    (executor.noting fresh).events.toList = executor.events.toList ++ fresh :=
  Array.toList_appendList

theorem wake_holding (keep : Bool) (target : String) :
    ((executor.holding id task).wake keep target).1 =
      (executor.wake keep target).1.holding id task := by
  unfold wake holding
  dsimp only
  split <;> rfl

theorem wake_emit (event : Event) (keep : Bool) (target : String) :
    (executor.emit event).wake keep target =
      ((executor.wake keep target).1.emit event, (executor.wake keep target).2) := by
  unfold wake emit
  dsimp only
  split <;> rfl

theorem spawn_holding (hne : id ≠ executor.queue.next) :
    (executor.holding id task).spawn name steps = (executor.spawn name steps).holding id task := by
  have hswap : (executor.tasks.insert id task).insert executor.queue.next ⟨name, 0, steps⟩ =
      (executor.tasks.insert executor.queue.next ⟨name, 0, steps⟩).insert id task := by
    ext other left
    grind
  unfold spawn holding
  simp only [RunQueue.spawn_eq, hswap]

/-- A task that does not run, and does not begin to, changes nothing about who runs. -/
theorem runs_moved {queue moved : RunQueue} {id : TaskId} {standing : Standing}
    (hstanding : ∀ other, moved.standing other =
      if id = other then standing else queue.standing other)
    (hbefore : ¬ Runs queue id) (hafter : ∀ woken, standing ≠ .running woken) (other : TaskId) :
    Runs moved other ↔ Runs queue other := by
  unfold Runs
  rw [hstanding]
  split
  · next heq => exact heq ▸ iff_of_false (fun ⟨woken, hruns⟩ ↦ hafter woken hruns) hbefore
  · rfl

namespace Sound

/-- If no task runs, the one that begins to is the only one. -/
theorem runs_started (sound : Sound declared upcoming past none executor) {queue : RunQueue}
    {id : TaskId} {woken : Bool}
    (hstanding : ∀ other, queue.standing other =
      if id = other then .running woken else executor.queue.standing other) (other : TaskId) :
    Runs queue other ↔ some id = some other := by
  unfold Runs
  rw [hstanding]
  split
  · next heq => simp [heq]
  · next hne =>
    refine iff_of_false (fun hruns ↦ ?_) fun heq ↦ hne (Option.some_inj.1 heq)
    cases sound.runs_iff.1 hruns

/-- If the task that runs stops, none runs. -/
theorem runs_stopped (sound : Sound declared upcoming past (some id) executor) {queue : RunQueue}
    {standing : Standing}
    (hstanding : ∀ other, queue.standing other =
      if id = other then standing else executor.queue.standing other)
    (hafter : ∀ woken, standing ≠ .running woken) (other : TaskId) :
    Runs queue other ↔ none = some other := by
  refine iff_of_false ?_ nofun
  rintro ⟨woken, hwoken⟩
  rw [hstanding] at hwoken
  split at hwoken
  · exact hafter woken hwoken
  · next hne => exact hne (Option.some_inj.1 (sound.runs_iff.1 ⟨woken, hwoken⟩))

section Queue

/-- Only the queue changes, and no held task moves. -/
theorem requeue {next : Option TaskId} (sound : Sound declared upcoming past busy executor)
    (queue : RunQueue) (full : queue.Exact) (hnext : executor.queue.next ≤ queue.next)
    (hplaced : ∀ id, Placed declared (queue.standing id) executor.tasks[id]?)
    (hruns : ∀ id, Runs queue id ↔ next = some id)
    (hheld : ∀ id, executor.queue.standing id = .held → queue.standing id = .held) :
    Sound declared upcoming past next { executor with queue } where
  full := full
  placed := hplaced
  runs_iff := hruns _
  held hmem := ⟨hheld _ (sound.held hmem).1, (sound.held hmem).2⟩
  waker hmem := ⟨Nat.lt_of_lt_of_le (sound.waker hmem).1 hnext, (sound.waker hmem).2⟩
  ledger := sound.ledger

theorem wakeTask (sound : Sound declared upcoming past busy executor) (woken : TaskId) :
    Sound declared upcoming past busy { executor with queue := executor.queue.wake woken } := by
  have hstanding := RunQueue.standing_wake executor.queue woken
  refine sound.requeue _ (sound.full.wake woken) (Nat.le_of_eq (RunQueue.next_wake _ _).symm)
    (fun id ↦ ?_) (fun id ↦ ?_) fun id hheld ↦ ?_
  · rw [hstanding]
    split
    · next heq => exact heq ▸ (sound.placed woken).woken
    · exact sound.placed id
  · rw [← sound.runs_iff, Runs, Runs, hstanding]
    split
    · next heq =>
      subst heq
      cases executor.queue.standing woken <;> simp [RunQueue.woken]
    · rfl
  · rw [hstanding]
    split
    · next heq =>
      rw [heq, hheld]
      rfl
    · exact hheld

theorem wake (sound : Sound declared upcoming past busy executor) (keep : Bool) (target : String) :
    Sound declared upcoming past busy (executor.wake keep target).1 := by
  unfold Executor.wake
  split
  · exact sound
  · next woken _ =>
    have hwoken := sound.wakeTask woken
    refine { hwoken with waker := fun hmem ↦ hwoken.waker ?_ }
    cases keep with
    | true => exact hmem
    | false => exact List.mem_of_mem_filter hmem

end Queue

theorem noting (sound : Sound declared upcoming past busy executor)
    (hquiet : ∀ name, seen name fresh = []) :
    Sound declared upcoming past busy (executor.noting fresh) := by
  refine { sound with ledger := ?_ }
  rw [toList_noting, ← List.append_assoc]
  exact sound.ledger.quiet hquiet

/-! ## New tasks and held tasks -/

section Admission

theorem tasks_next (sound : Sound declared upcoming past busy executor) :
    executor.tasks[executor.queue.next]? = none := by
  have hplaced := sound.placed executor.queue.next
  rw [sound.full.standing_next] at hplaced
  cases hentry : executor.tasks[executor.queue.next]? with
  | none => rfl
  | some task =>
    rw [hentry] at hplaced
    cases hplaced

/-- A job comes on board under the next id. -/
theorem embark
    (sound : Sound declared (⟨name, steps⟩ :: stepsJobs steps ++ upcoming) past busy executor)
    (queue : RunQueue) (full : queue.Exact) (hnext : executor.queue.next < queue.next)
    (hstanding : ∀ id, queue.standing id =
      if executor.queue.next = id then standing else executor.queue.standing id)
    (hplaced : Placed declared standing (some ⟨name, 0, steps⟩))
    (hidle : ∀ woken, standing ≠ .running woken) :
    Sound declared upcoming past busy
      { executor with
        queue
        tasks := executor.tasks.insert executor.queue.next ⟨name, 0, steps⟩ } := by
  have hended := sound.full.standing_next
  have hentry (other : TaskId) :
      (executor.tasks.insert executor.queue.next ⟨name, 0, steps⟩)[other]? =
        if executor.queue.next = other then some ⟨name, 0, steps⟩ else executor.tasks[other]? := by
    simp [Std.ExtTreeMap.getElem?_insert]
  constructor
  case full => exact full
  case placed =>
    intro id
    simp only [hentry, hstanding]
    split
    · exact hplaced
    · exact sound.placed id
  case runs_iff =>
    intro id
    have hvacant : ¬ Runs executor.queue executor.queue.next := by
      rintro ⟨woken, hwoken⟩
      rw [hended] at hwoken
      cases hwoken
    rw [← sound.runs_iff]
    exact runs_moved hstanding hvacant hidle id
  case held =>
    intro other id hmem
    obtain ⟨hheld, hname⟩ := sound.held hmem
    have hne : executor.queue.next ≠ id := by
      rintro rfl
      rw [hended] at hheld
      cases hheld
    simp only [hentry, hstanding, if_neg hne]
    exact ⟨hheld, hname⟩
  case waker =>
    intro other id hmem
    obtain ⟨hlt, hname⟩ := sound.waker hmem
    simp only [hentry, if_neg (Nat.ne_of_gt hlt)]
    exact ⟨Nat.lt_trans hlt hnext, hname⟩
  case ledger => exact sound.ledger.enter sound.tasks_next

theorem spawn
    (sound : Sound declared (⟨name, steps⟩ :: stepsJobs steps ++ upcoming) past busy executor) :
    Sound declared upcoming past busy (executor.spawn name steps) := by
  have hlt : executor.queue.next < executor.queue.spawn.2.next := by
    rw [RunQueue.next_spawn]
    exact Nat.lt_succ_self _
  have hembarked := sound.embark executor.queue.spawn.2 sound.full.spawn hlt
    (RunQueue.standing_spawn _) .ready nofun
  unfold Executor.spawn
  rwa [RunQueue.spawn_eq] at hembarked ⊢

theorem cost_embark (sound : Sound declared upcoming past busy executor) (name : String)
    (steps : List Step) :
    cost (aboard (executor.tasks.insert executor.queue.next ⟨name, 0, steps⟩)) =
      cost (aboard executor.tasks) + cost (⟨name, steps⟩ :: stepsJobs steps) := by
  rw [cost_insert, erase_of_getElem?_eq_none sound.tasks_next, Nat.add_comm]
  rfl

theorem tasks_spawn (executor : Executor) (name : String) (steps : List Step) :
    (executor.spawn name steps).tasks =
      executor.tasks.insert executor.queue.next ⟨name, 0, steps⟩ := by
  unfold Executor.spawn
  rw [RunQueue.spawn_eq]

theorem held_task (sound : Sound declared upcoming past busy executor)
    (hmem : (name, id) ∈ executor.held) :
    ∃ task, executor.tasks[id]? = some task ∧ task.name = name := by
  obtain ⟨hheld, hname⟩ := sound.held hmem
  have hplaced := sound.placed id
  cases hentry : executor.tasks[id]? with
  | none =>
    rw [hheld, hentry] at hplaced
    cases hplaced
  | some task => exact ⟨task, rfl, hname task hentry⟩

/-- Entries of other tasks stay when a held one is taken. -/
theorem mem_others (sound : Sound declared upcoming past busy executor)
    (hmem : (name, id) ∈ executor.held) :
    ∀ entry ∈ executor.held, id ≠ entry.2 → entry ∈ others name executor.held := by
  rintro ⟨second, other⟩ hentry hne
  refine List.mem_filter.2 ⟨hentry, decide_eq_true fun hname ↦ hne ?_⟩
  obtain ⟨task, htask, hsame⟩ := sound.held_task hmem
  obtain ⟨holder, hholder, hother⟩ := sound.held_task hentry
  exact sound.ledger.id_eq_of_name_eq hholder htask ((hsame.trans hname.symm).trans hother.symm)

/-- No task is held yet under the name of a job that is ahead. -/
theorem lookup_held
    (sound : Sound declared (⟨name, steps⟩ :: stepsJobs steps ++ upcoming) past busy executor) :
    executor.held.lookup name = none := by
  refine List.lookup_eq_none_iff.2 fun entry hmem ↦ ?_
  obtain ⟨task, htask, hname⟩ := sound.held_task hmem
  have hne := sound.ledger.name_ne_of_ahead htask (.inl List.mem_cons_self)
  simpa [← hname] using hne

theorem others_held
    (sound : Sound declared (⟨name, steps⟩ :: stepsJobs steps ++ upcoming) past busy executor) :
    others name executor.held = executor.held := by
  refine List.filter_eq_self.2 fun entry hmem ↦ decide_eq_true fun heq ↦ ?_
  simpa [heq] using List.lookup_eq_none_iff.1 sound.lookup_held entry hmem

theorem prepare_eq
    (sound : Sound declared (⟨name, steps⟩ :: stepsJobs steps ++ upcoming) past busy executor) :
    executor.prepare name steps =
      { executor with
        queue := executor.queue.prepare.2
        tasks := executor.tasks.insert executor.queue.next ⟨name, 0, steps⟩
        held := (name, executor.queue.next) :: others name executor.held } := by
  unfold Executor.prepare
  rw [sound.lookup_held]
  rfl

theorem prepare
    (sound : Sound declared (⟨name, steps⟩ :: stepsJobs steps ++ upcoming) past busy executor) :
    Sound declared upcoming past busy (executor.prepare name steps) := by
  rw [sound.prepare_eq]
  have hstanding := RunQueue.standing_prepare executor.queue
  have hembarked := sound.embark executor.queue.prepare.2 sound.full.prepare (Nat.lt_succ_self _)
    hstanding .held nofun
  refine { hembarked with held := fun {other holder} hmem ↦ ?_ }
  obtain heq | hkept := List.mem_cons.1 hmem
  · obtain ⟨rfl, rfl⟩ := Prod.mk.inj heq
    have hself : (executor.tasks.insert executor.queue.next ⟨other, 0, steps⟩)[
        executor.queue.next]? = some ⟨other, 0, steps⟩ := Std.ExtTreeMap.getElem?_insert_self
    refine ⟨by rw [hstanding, if_pos rfl], fun task htask ↦ ?_⟩
    exact congrArg Task.name (Option.some_inj.1 (htask.symm.trans hself))
  · exact hembarked.held (List.mem_of_mem_filter hkept)

/-- A held task is taken, and no other task is held under its id. -/
theorem take {next : Option TaskId} (sound : Sound declared upcoming past busy executor)
    (hmem : (name, id) ∈ executor.held) (queue : RunQueue) (full : queue.Exact)
    (hnext : executor.queue.next ≤ queue.next)
    (hstanding : ∀ other, queue.standing other =
      if id = other then standing else executor.queue.standing other)
    (hplaced : ∀ task, Placed declared standing (some task))
    (hruns : ∀ other, Runs queue other ↔ next = some other) :
    Sound declared upcoming past next
      { executor with queue, held := others name executor.held } := by
  obtain ⟨task, htask, hname⟩ := sound.held_task hmem
  constructor
  case full => exact full
  case placed =>
    intro other
    simp only [hstanding]
    split
    · next heq =>
      rw [← heq, htask]
      exact hplaced task
    · exact sound.placed other
  case runs_iff => exact hruns _
  case held =>
    intro other kept hkept
    obtain ⟨hentry, hother⟩ := List.mem_filter.1 hkept
    obtain ⟨hheld, hsame⟩ := sound.held hentry
    have hne : id ≠ kept := by
      rintro rfl
      exact of_decide_eq_true hother ((hsame task htask).symm.trans hname)
    simp only [hstanding, if_neg hne]
    exact ⟨hheld, hsame⟩
  case waker => exact fun hentry ↦
    ⟨Nat.lt_of_lt_of_le (sound.waker hentry).1 hnext, (sound.waker hentry).2⟩
  case ledger => exact sound.ledger

theorem schedule (sound : Sound declared upcoming past none executor)
    (hmem : (name, id) ∈ executor.held) :
    Sound declared upcoming past none
      { executor with queue := executor.queue.schedule id, held := others name executor.held } := by
  have hheld := (sound.held hmem).1
  have hstanding := RunQueue.standing_schedule hheld
  have hidle : ¬ Runs executor.queue id := by
    rintro ⟨woken, hruns⟩
    rw [hheld] at hruns
    cases hruns
  refine sound.take hmem _ (sound.full.schedule hheld) ?_ hstanding (fun _ ↦ .ready) fun other ↦ ?_
  · rw [RunQueue.schedule, hheld]
    exact Nat.le_refl _
  · rw [← sound.runs_iff]
    apply runs_moved hstanding hidle
    rintro woken ⟨⟩

theorem start (sound : Sound declared upcoming past none executor)
    (hmem : (name, id) ∈ executor.held) :
    Sound declared upcoming past (some id)
      { executor with queue := executor.queue.start id, held := others name executor.held } := by
  have hheld := (sound.held hmem).1
  have hstanding := RunQueue.standing_start hheld
  apply sound.take hmem _ (sound.full.start hheld) _ hstanding (fun _ ↦ .running)
    (sound.runs_started hstanding)
  rw [RunQueue.start, hheld]
  exact Nat.le_refl _

/-- The head of the line begins to run. -/
theorem fetch {fetched : RunQueue.Fetched} {queue : RunQueue}
    (sound : Sound declared upcoming past none executor)
    (hfetch : executor.queue.fetch? = some (fetched, queue)) :
    ∃ id, fetched = .toRun id ∧ Sound declared upcoming past (some id) { executor with queue } := by
  obtain ⟨id, line, hline, rfl, rfl⟩ := sound.full.fetch hfetch
  have hready := sound.full.ready (hline ▸ List.mem_cons_self : id ∈ executor.queue.line)
  have hstanding (other : TaskId) :
      ({ executor.queue.place id (.running false) with line } : RunQueue).standing other =
        if id = other then .running false else executor.queue.standing other :=
    RunQueue.standing_place _ _ _ _
  refine ⟨id, rfl, sound.requeue _ (sound.full.fetched hline) (Nat.le_refl _) (fun other ↦ ?_)
    (sound.runs_started hstanding) fun other hheld ↦ ?_⟩
  · rw [hstanding]
    split
    · next heq =>
      subst heq
      have hplaced := sound.placed id
      rw [hready] at hplaced
      cases hentry : executor.tasks[id]? with
      | none =>
        rw [hentry] at hplaced
        cases hplaced
      | some task => exact .running
    · exact sound.placed other
  · rw [hstanding, if_neg, hheld]
    rintro rfl
    rw [hready] at hheld
    cases hheld

end Admission

/-! ## Steps of a running task -/

section Running

theorem standing_busy (sound : Sound declared upcoming past (some id) executor) :
    ∃ woken, executor.queue.standing id = .running woken := sound.runs_iff.2 rfl

/-- A running task does a step. -/
theorem advance (sound : Sound declared upcoming past (some id)
      (executor.holding id ⟨name, index, step :: rest⟩))
    (shown : Shows fresh name (step.trace name index)) :
    Sound declared (step.jobs ++ upcoming) past (some id)
      ((executor.noting fresh).holding id ⟨name, index + 1, rest⟩) := by
  have hself : (executor.holding id ⟨name, index, step :: rest⟩).tasks[id]? =
      some ⟨name, index, step :: rest⟩ := Std.ExtTreeMap.getElem?_insert_self
  have hentry (other : TaskId) :
      ((executor.noting fresh).holding id ⟨name, index + 1, rest⟩).tasks[other]? =
        if id = other then some ⟨name, index + 1, rest⟩ else executor.tasks[other]? := by
    simp [holding, Executor.noting, Std.ExtTreeMap.getElem?_insert]
  have hname (other : TaskId) (task : Task)
      (htask : ((executor.noting fresh).holding id ⟨name, index + 1, rest⟩).tasks[other]? =
        some task) :
      ∃ before, (executor.holding id ⟨name, index, step :: rest⟩).tasks[other]? = some before ∧
        task.name = before.name := by
    rw [hentry] at htask
    split at htask
    · next heq =>
      subst heq
      exact ⟨_, hself, by rw [← Option.some_inj.1 htask]⟩
    · next hne =>
      refine ⟨task, ?_, rfl⟩
      simpa [holding, Std.ExtTreeMap.getElem?_insert, hne] using htask
  constructor
  case full => exact sound.full
  case runs_iff => exact sound.runs_iff
  case placed =>
    intro other
    rw [hentry]
    split
    · next heq =>
      subst heq
      obtain ⟨woken, hwoken⟩ := sound.standing_busy
      change Placed declared (executor.queue.standing id) _
      rw [show executor.queue.standing id = .running woken from hwoken]
      exact .running
    · next hne =>
      have hplaced := sound.placed other
      simpa [holding, Executor.noting, Std.ExtTreeMap.getElem?_insert, hne] using hplaced
  case held =>
    intro other id hmem
    refine ⟨(sound.held hmem).1, fun task htask ↦ ?_⟩
    obtain ⟨before, hbefore, hsame⟩ := hname _ task htask
    exact hsame.trans ((sound.held hmem).2 before hbefore)
  case waker =>
    intro other id hmem
    refine ⟨(sound.waker hmem).1, fun task htask ↦ ?_⟩
    obtain ⟨before, hbefore, hsame⟩ := hname _ task htask
    exact hsame.trans ((sound.waker hmem).2 before hbefore)
  case ledger =>
    have hledger := sound.ledger.advance hself shown
    have htwice : (executor.tasks.insert id ⟨name, index, step :: rest⟩).insert id
        ⟨name, index + 1, rest⟩ = executor.tasks.insert id ⟨name, index + 1, rest⟩ := by
      ext other left
      grind
    rw [List.append_assoc] at hledger
    change Ledger _ _ (executor.tasks.insert id ⟨name, index + 1, rest⟩)
      (past ++ (executor.noting fresh).events.toList)
    rw [toList_noting, ← htwice]
    exact hledger

/-- A waker of a running task replaces none but its own. -/
theorem leaveWaker_eq (sound : Sound declared upcoming past (some id) (executor.holding id task)) :
    executor.leaveWaker task.name id =
      { executor with wakers := (task.name, id) :: others task.name executor.wakers } := by
  have hself : (executor.holding id task).tasks[id]? = some task :=
    Std.ExtTreeMap.getElem?_insert_self
  unfold leaveWaker
  split
  · next replaced hlookup =>
    obtain ⟨front, back, hwakers, -⟩ := List.lookup_eq_some_iff.1 hlookup
    have hmem : (task.name, replaced) ∈ (executor.holding id task).wakers := by
      change _ ∈ executor.wakers
      simp [hwakers]
    have hidle : executor.queue.standing replaced ≠ .suspended := by
      intro hsuspended
      have hplaced := sound.placed replaced
      change Placed declared (executor.queue.standing replaced) _ at hplaced
      cases hentry : (executor.holding id task).tasks[replaced]? with
      | none =>
        rw [hsuspended, hentry] at hplaced
        cases hplaced
      | some other =>
        have hname := (sound.waker hmem).2 other hentry
        obtain rfl := sound.ledger.id_eq_of_name_eq hself hentry hname
        obtain ⟨woken, hwoken⟩ := sound.standing_busy
        exact Standing.noConfusion (hsuspended.symm.trans hwoken)
    rw [RunQueue.forsake_of_ne hidle]
  · rfl

theorem leaveWaker (sound : Sound declared upcoming past (some id) (executor.holding id task)) :
    Sound declared upcoming past (some id)
      ((executor.leaveWaker task.name id).holding id task) := by
  rw [sound.leaveWaker_eq]
  refine { sound with waker := fun {other holder} hmem ↦ ?_ }
  obtain heq | hkept := List.mem_cons.1 hmem
  · obtain ⟨rfl, rfl⟩ := Prod.mk.inj heq
    obtain ⟨woken, hwoken⟩ := sound.standing_busy
    refine ⟨sound.full.numbered (by simp [hwoken]), fun left hleft ↦ ?_⟩
    have hself : (executor.tasks.insert holder task)[holder]? = some task :=
      Std.ExtTreeMap.getElem?_insert_self
    exact congrArg Task.name (Option.some_inj.1 (hleft.symm.trans hself))
  · exact sound.waker (List.mem_of_mem_filter hkept)

theorem suspend (sound : Sound declared upcoming past (some id) (executor.holding id task))
    (hparked : executor.queue.standing id = .running false →
      Placed declared .suspended (some task)) :
    Sound declared upcoming past none (executor.suspend id task).1 := by
  have hself : (executor.holding id task).tasks[id]? = some task :=
    Std.ExtTreeMap.getElem?_insert_self
  obtain ⟨woken, hwoken⟩ := sound.standing_busy
  have hstanding := RunQueue.standing_suspend hwoken
  change Sound declared upcoming past none
    { executor.holding id task with queue := ((executor.holding id task).queue.suspend id).1 }
  have hidle (again : Bool) :
      (if woken then .ready else .suspended : Standing) ≠ .running again := by
    cases woken <;> nofun
  refine sound.requeue _ (sound.full.suspend hwoken)
    (Nat.le_of_eq (RunQueue.next_suspend _ _).symm) (fun other ↦ ?_)
    (sound.runs_stopped hstanding hidle) fun other hheld ↦ ?_
  · rw [hstanding]
    split
    · next heq =>
      subst heq
      rw [hself]
      cases woken with
      | true => exact .ready
      | false => exact hparked hwoken
    · exact sound.placed other
  · rw [hstanding, if_neg, hheld]
    rintro rfl
    rw [hwoken] at hheld
    cases hheld

theorem finish (sound : Sound declared upcoming past (some id)
      (executor.holding id ⟨name, index, []⟩))
    (shown : Shows fresh name [.ended name]) :
    Sound declared upcoming past none ((executor.noting fresh).finish id) := by
  have hself : (executor.holding id ⟨name, index, []⟩).tasks[id]? = some ⟨name, index, []⟩ :=
    Std.ExtTreeMap.getElem?_insert_self
  obtain ⟨woken, hwoken⟩ := sound.standing_busy
  have hentry (other : TaskId) (hne : other ≠ id) :
      ((executor.noting fresh).finish id).tasks[other]? =
        (executor.holding id ⟨name, index, []⟩).tasks[other]? := by
    simp [Executor.noting, holding, Executor.finish, Std.ExtTreeMap.getElem?_erase,
      Std.ExtTreeMap.getElem?_insert, hne.symm]
  have hnone : ((executor.noting fresh).finish id).tasks[id]? = none :=
    Std.ExtTreeMap.getElem?_erase_self
  have hstanding (other : TaskId) : ((executor.noting fresh).finish id).queue.standing other =
      if id = other then .ended else (executor.holding id ⟨name, index, []⟩).queue.standing other :=
    RunQueue.standing_place _ _ _ _
  constructor
  case full => exact sound.full.finish (sound.full.not_mem (by simp [hwoken]))
  case placed =>
    intro other
    rw [hstanding]
    split
    · next heq =>
      rw [← heq, hnone]
      exact .ended
    · next hne =>
      rw [hentry other (Ne.symm hne)]
      exact sound.placed other
  case runs_iff => exact sound.runs_stopped hstanding nofun _
  case held =>
    intro held other hmem
    obtain ⟨hheld, hname⟩ := sound.held hmem
    have hne : other ≠ id := by
      rintro rfl
      rw [hwoken] at hheld
      cases hheld
    exact ⟨by rw [hstanding, if_neg hne.symm, hheld], by rwa [hentry other hne]⟩
  case waker =>
    intro held other hmem
    obtain ⟨hlt, hname⟩ := sound.waker hmem
    refine ⟨hlt, fun task htask ↦ ?_⟩
    have hne : other ≠ id := by
      rintro rfl
      rw [hnone] at htask
      cases htask
    exact hname task (hentry other hne ▸ htask)
  case ledger =>
    have hledger := sound.ledger.finish hself shown
    rw [List.append_assoc] at hledger
    change Ledger _ _ (executor.tasks.erase id) (past ++ (executor.noting fresh).events.toList)
    rw [toList_noting, ← erase_insert executor.tasks id ⟨name, index, []⟩]
    exact hledger

end Running

end Sound

end Lifecycle.Executor
