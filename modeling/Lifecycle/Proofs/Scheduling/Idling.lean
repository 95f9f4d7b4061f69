import Lifecycle.Proofs.Scheduling.Executor

/-!
# Executors that go idle

Each run of a task uses up one of the runs that the jobs on board cost, so that the line runs dry
before the work is spent. Over a sequence of operations on jobs under different names an executor
stays in order: what is seen of a job is the beginning of its course, and all of them together cost
no more runs than their steps tell.
-/

namespace Lifecycle.Executor

variable {declared upcoming : List Job} {past : List Event} {executor : Executor} {id : TaskId}
  {task : Task} {name : String} {index : Nat} {steps rest : List Step}

/-! ## Runs of single tasks -/

section Traces

theorem shows_reached (name : String) (index : Nat) :
    Shows [.reached name index] name [.reached name index] where
  own := by simp [seen, Event.of]
  others hne := by simp [seen, Event.of, hne.symm]

theorem shows_woke (name : String) (index : Nat) (keep : Bool) (target : String) (found : Bool) :
    Shows [.reached name index, .woke name keep target found] name
      [.reached name index, .woke name keep target true] where
  own := by simp [seen, Event.of]
  others hne := by simp [seen, Event.of, hne.symm]

theorem shows_ended (name : String) : Shows [.ended name] name [.ended name] where
  own := by simp [seen, Event.of]
  others hne := by simp [seen, Event.of, hne.symm]

end Traces

theorem tasks_wake (executor : Executor) (keep : Bool) (target : String) :
    (executor.wake keep target).1.tasks = executor.tasks := by
  unfold wake
  split <;> rfl

theorem perform_wake (executor : Executor) (id : TaskId) (name : String) (index : Nat) (keep : Bool)
    (target : String) (rest : List Step) :
    executor.perform id name index (.wake keep target :: rest) =
      ((executor.wake keep target).1.noting
        [.reached name index, .woke name keep target (executor.wake keep target).2]).perform
          id name (index + 1) rest := by
  rw [perform]
  simp only [wake_emit]
  rfl

namespace Sound

theorem wakeTimes {busy : Option TaskId} (sound : Sound declared upcoming past busy executor)
    (count : Nat) (woken : TaskId) :
    Sound declared upcoming past busy
      { executor with queue := count.repeat (fun queue ↦ queue.wake woken) executor.queue } := by
  induction count with
  | zero => exact sound
  | succ count ih => exact ih.wakeTask woken

/-- A task that has woken itself is not suspended. -/
theorem suspend_woken (sound : Sound declared upcoming past (some id) (executor.holding id task))
    (how : SelfWake) :
    Sound declared upcoming past none
      (({ executor with queue := how.count.repeat (fun queue ↦ queue.wake id) executor.queue }
        : Executor).suspend id task).1 := by
  obtain ⟨woken, hrunning⟩ := sound.standing_busy
  have hwoken := (RunQueue.repeat_wake hrunning how.count).2.2 id
  rw [if_pos rfl, decide_eq_true how.count_pos, Bool.or_true] at hwoken
  exact (sound.wakeTimes how.count id).suspend fun hidle ↦
    Standing.noConfusion (hwoken.symm.trans hidle) nofun

/-- What is declared of a task that is about to park. -/
theorem placed_parked (sound : Sound declared upcoming past (some id)
      (executor.holding id ⟨name, index, .park :: rest⟩)) :
    Placed declared .suspended (some ⟨name, index + 1, rest⟩) := by
  have hself : (executor.holding id ⟨name, index, .park :: rest⟩).tasks[id]? =
      some ⟨name, index, .park :: rest⟩ := Std.ExtTreeMap.getElem?_insert_self
  obtain ⟨done, hdeclared, rfl, -⟩ := sound.ledger.begun hself
  exact .suspended hdeclared

/-- A run keeps everything in order and uses up one of the runs that the jobs cost. -/
theorem perform (sound : Sound declared upcoming past (some id)
      (executor.holding id ⟨name, index, steps⟩)) :
    Sound declared upcoming past none (executor.perform id name index steps).1 ∧
      cost (aboard (executor.perform id name index steps).1.tasks) <
        cost (aboard (executor.tasks.insert id ⟨name, index, steps⟩)) := by
  induction steps generalizing executor index with
  | nil =>
    refine ⟨sound.finish (shows_ended name), ?_⟩
    rw [cost_end, Nat.add_comm]
    exact Nat.lt_succ_self _
  | cons step rest ih =>
    rw [cost_step]
    cases step with
    | idle =>
      obtain ⟨hsound, hcost⟩ := ih (sound.advance (shows_reached name index))
      exact ⟨hsound, Nat.lt_of_lt_of_le hcost (Nat.le_add_left _ _)⟩
    | wake keep target =>
      have hwoken := sound.wake keep target
      rw [wake_holding] at hwoken
      obtain ⟨hsound, hcost⟩ := ih (hwoken.advance (shows_woke name index keep target
        (executor.wake keep target).2))
      change _ < cost (aboard ((executor.wake keep target).1.tasks.insert id _)) at hcost
      rw [tasks_wake] at hcost
      rw [perform_wake]
      exact ⟨hsound, Nat.lt_of_lt_of_le hcost (Nat.le_add_left _ _)⟩
    | spawn other steps =>
      have hadvanced := sound.advance (shows_reached name index)
      obtain ⟨woken, hwoken⟩ := sound.standing_busy
      have hne : id ≠ (executor.noting [.reached name index]).queue.next :=
        Nat.ne_of_lt (sound.full.numbered (by simp [hwoken]))
      have hspawned := hadvanced.spawn
      have hspent := hadvanced.cost_embark other steps
      rw [← tasks_spawn] at hspent
      rw [spawn_holding hne] at hspawned hspent
      obtain ⟨hsound, hcost⟩ := ih hspawned
      exact ⟨hsound, Nat.lt_of_lt_of_eq hcost (hspent.trans (Nat.add_comm _ _))⟩
    | yield how =>
      have hadvanced := sound.advance (shows_reached name index)
      exact ⟨hadvanced.suspend_woken how, Nat.lt_succ_of_le (Nat.le_add_left _ _)⟩
    | park =>
      have hadvanced := sound.advance (shows_reached name index)
      exact ⟨hadvanced.leaveWaker.suspend fun _ ↦ sound.placed_parked,
        Nat.lt_succ_of_le (Nat.le_add_left _ _)⟩

/-- A task that runs is there, as it was when it began to. -/
theorem found (sound : Sound declared upcoming past (some id) executor) :
    ∃ task, executor.tasks[id]? = some task ∧ executor.holding id task = executor := by
  obtain ⟨woken, hwoken⟩ := sound.standing_busy
  have hplaced := sound.placed id
  rw [hwoken] at hplaced
  cases htask : executor.tasks[id]? with
  | none =>
    rw [htask] at hplaced
    cases hplaced
  | some task =>
    have hself : executor.tasks.insert id task = executor.tasks := by
      ext other left
      grind
    refine ⟨task, rfl, ?_⟩
    unfold holding
    rw [hself]

theorem run (sound : Sound declared upcoming past (some id) executor) :
    Sound declared upcoming past none (executor.run id).1 ∧
      cost (aboard (executor.run id).1.tasks) < cost (aboard executor.tasks) := by
  obtain ⟨task, htask, hholding⟩ := sound.found
  have hself : executor.tasks.insert id task = executor.tasks := congrArg Executor.tasks hholding
  rw [← hholding] at sound
  have hperformed := sound.perform
  rw [hself] at hperformed
  unfold Executor.run
  rwa [htask]

/-! ## Draining -/

/-- The head of the line runs, if there is one. -/
theorem runHead {fetched : RunQueue.Fetched} {queue : RunQueue}
    (sound : Sound declared upcoming past none executor)
    (hfetch : executor.queue.fetch? = some (fetched, queue)) :
    ∃ id, fetched = .toRun id ∧
      let ran := (({ executor with queue } : Executor).emit (.logged .taskFetched)).run id
      Sound declared upcoming past none ran.1 ∧
        cost (aboard ran.1.tasks) < cost (aboard executor.tasks) := by
  obtain ⟨id, rfl, hrunning⟩ := sound.fetch hfetch
  have hquiet (name : String) : seen name [.logged .taskFetched] = [] := rfl
  exact ⟨id, rfl, (hrunning.noting hquiet).run⟩

theorem runUpTo (sound : Sound declared upcoming past none executor) (limit : Nat) :
    Sound declared upcoming past none (runUpTo limit executor).1 ∧
      cost (aboard (Executor.runUpTo limit executor).1.tasks) +
        (Executor.runUpTo limit executor).2 ≤ cost (aboard executor.tasks) := by
  induction limit generalizing executor with
  | zero => exact ⟨sound, Nat.le_refl _⟩
  | succ limit ih =>
    unfold Executor.runUpTo
    cases hfetch : executor.queue.fetch? with
    | none => exact ⟨sound, Nat.le_refl _⟩
    | some entry =>
      obtain ⟨fetched, queue⟩ := entry
      obtain ⟨id, rfl, hsound, hcost⟩ := sound.runHead hfetch
      obtain ⟨hlast, hspent⟩ := ih hsound
      exact ⟨hlast, by dsimp only; omega⟩

/-- The line runs dry within the runs that the jobs on board cost. -/
theorem fetch_runUpTo {limit : Nat} (sound : Sound declared upcoming past none executor)
    (hlimit : cost (aboard executor.tasks) ≤ limit) :
    (Executor.runUpTo limit executor).1.queue.fetch? = none := by
  induction limit generalizing executor with
  | zero =>
    cases hfetch : executor.queue.fetch? with
    | none => exact hfetch
    | some entry =>
      obtain ⟨id, -, -, hcost⟩ := sound.runHead hfetch
      exact absurd hlimit (Nat.not_le_of_lt (Nat.zero_lt_of_lt hcost))
  | succ limit ih =>
    unfold Executor.runUpTo
    cases hfetch : executor.queue.fetch? with
    | none => exact hfetch
    | some entry =>
      obtain ⟨fetched, queue⟩ := entry
      obtain ⟨id, rfl, hsound, hcost⟩ := sound.runHead hfetch
      exact ih hsound (Nat.le_of_lt_succ (Nat.lt_of_lt_of_le hcost hlimit))

end Sound

/-- A higher limit changes nothing once the line has run dry. -/
theorem runUpTo_add {limit : Nat}
    (hidle : (runUpTo limit executor).1.queue.fetch? = none) (more : Nat) :
    runUpTo (limit + more) executor = runUpTo limit executor := by
  induction limit generalizing executor with
  | zero =>
    have hfetch : executor.queue.fetch? = none := hidle
    cases more with
    | zero => rfl
    | succ more => simp only [runUpTo, hfetch]
  | succ limit ih =>
    rw [Nat.succ_add_eq_add_succ, Nat.add_succ, runUpTo, runUpTo]
    rw [runUpTo] at hidle
    cases hfetch : executor.queue.fetch? with
    | none => rfl
    | some entry =>
      rw [hfetch] at hidle
      simp only [ih hidle]

/-- Draining comes to its end with an empty line, however long it may go on. -/
structure Idles (executor : Executor) : Prop where
  fetch_eq : executor.drain.1.queue.fetch? = none
  runUpTo_eq (more : Nat) : runUpTo (executor.work + more) executor = executor.drain

theorem Sound.idles (sound : Sound declared upcoming past none executor) : executor.Idles where
  fetch_eq := sound.fetch_runUpTo (cost_aboard_le_work executor)
  runUpTo_eq := runUpTo_add (sound.fetch_runUpTo (cost_aboard_le_work executor))

/-! ## Sequences of operations -/

/-- The jobs that an operation brings, with those that they are going to spawn. -/
def Operation.jobs : Operation → List Job
  | .spawn name steps => ⟨name, steps⟩ :: stepsJobs steps
  | .prepare name steps => ⟨name, steps⟩ :: stepsJobs steps
  | _ => []

def jobs (operations : List Operation) : List Job := operations.flatMap Operation.jobs

/-- The runs of tasks during an operation. -/
def Result.runs : Result → Nat
  | .ran count => count
  | .rescheduled _ => 1
  | _ => 0

theorem mem_of_lookup {entries : List (String × TaskId)} (hlookup : entries.lookup name = some id) :
    (name, id) ∈ entries := by
  obtain ⟨front, back, rfl, -⟩ := List.lookup_eq_some_iff.1 hlookup
  exact List.mem_append_right _ List.mem_cons_self

theorem Sound.apply {operation : Operation}
    (sound : Sound declared (operation.jobs ++ upcoming) past none executor) :
    Sound declared upcoming past none (executor.apply operation).1 ∧
      cost (aboard (executor.apply operation).1.tasks) + (executor.apply operation).2.runs ≤
        cost (aboard executor.tasks) + cost operation.jobs := by
  cases operation with
  | spawn name steps =>
    refine ⟨sound.spawn, Nat.le_of_eq ?_⟩
    change cost (aboard (executor.spawn name steps).tasks) = _
    rw [tasks_spawn]
    exact sound.cost_embark name steps
  | prepare name steps =>
    refine ⟨sound.prepare, Nat.le_of_eq ?_⟩
    change cost (aboard (executor.prepare name steps).tasks) = _
    rw [sound.prepare_eq]
    exact sound.cost_embark name steps
  | schedule name =>
    replace sound : Sound declared upcoming past none executor := sound
    simp only [Executor.apply, takeHeld?]
    cases hlookup : executor.held.lookup name with
    | none => exact ⟨sound, Nat.le_refl _⟩
    | some id => exact ⟨sound.schedule (mem_of_lookup hlookup), Nat.le_refl _⟩
  | runHeld name =>
    replace sound : Sound declared upcoming past none executor := sound
    simp only [Executor.apply, takeHeld?]
    cases hlookup : executor.held.lookup name with
    | none => exact ⟨sound, Nat.le_refl _⟩
    | some id =>
      obtain ⟨hsound, hcost⟩ := (sound.start (mem_of_lookup hlookup)).run
      exact ⟨hsound, hcost⟩
  | run => exact sound.runUpTo executor.work
  | wake keep name =>
    refine ⟨sound.wake keep name, Nat.le_of_eq ?_⟩
    change cost (aboard (executor.wake keep name).1.tasks) = _
    rw [tasks_wake]
    rfl
  | other => exact ⟨sound, Nat.le_refl _⟩

/-- What was seen is put on record. -/
theorem Sound.clear (sound : Sound declared upcoming past none executor) :
    Sound declared upcoming (past ++ executor.events.toList) none
      { executor with events := #[] } := by
  refine { sound with ledger := ?_ }
  simpa using sound.ledger

theorem Sound.applyAll {operations : List Operation}
    (sound : Sound declared (jobs operations ++ upcoming) past none
      { executor with events := #[] }) :
    Sound declared upcoming (past ++ (executor.applyAll operations).2.flatMap (·.events)) none
        { (executor.applyAll operations).1 with events := #[] } ∧
      cost (aboard (executor.applyAll operations).1.tasks) +
          ((executor.applyAll operations).2.map (·.result.runs)).sum ≤
        cost (aboard executor.tasks) + cost (jobs operations) := by
  induction operations generalizing executor past with
  | nil => exact ⟨by simpa [Executor.applyAll, jobs] using sound, Nat.le_refl _⟩
  | cons operation rest ih =>
    have hjobs : jobs (operation :: rest) = operation.jobs ++ jobs rest := rfl
    rw [hjobs, List.append_assoc] at sound
    obtain ⟨hsound, hcost⟩ := sound.apply
    obtain ⟨hlast, hspent⟩ := ih hsound.clear
    rw [List.append_assoc] at hlast
    refine ⟨hlast, ?_⟩
    change cost (aboard executor.tasks) + cost operation.jobs ≥ _ at hcost
    rw [hjobs, cost_append]
    simp only [Executor.applyAll, List.map_cons, List.sum_cons]
    omega

theorem applyAll_append (front back : List Operation) :
    executor.applyAll (front ++ back) =
      (((executor.applyAll front).1.applyAll back).1,
        (executor.applyAll front).2 ++ ((executor.applyAll front).1.applyAll back).2) := by
  induction front generalizing executor with
  | nil => rfl
  | cons operation rest ih => simp only [List.cons_append, applyAll, ih]

theorem aboard_empty : aboard empty.tasks = [] := by simp [aboard, empty]

/-- An executor without tasks is in order for jobs under different names. -/
theorem sound_empty (hnames : (declared.map Job.name).Nodup) :
    Sound declared declared [] none empty where
  full := RunQueue.exact_empty
  placed id := by
    have hstanding : empty.queue.standing id = .ended := RunQueue.standing_empty id
    have hentry : empty.tasks[id]? = none := Std.ExtTreeMap.getElem?_empty
    rw [hstanding, hentry]
    exact .ended
  runs_iff {id} := by
    have hstanding : empty.queue.standing id = .ended := RunQueue.standing_empty id
    simp [Runs, hstanding]
  held hmem := nomatch hmem
  waker hmem := nomatch hmem
  ledger := by
    have hentry (id : TaskId) : empty.tasks[id]? = none := Std.ExtTreeMap.getElem?_empty
    constructor
    case unique =>
      exact fun hfirst hsecond hname ↦ List.inj_on_of_nodup_map hnames hfirst hsecond hname
    case distinct =>
      rwa [aboard_empty, List.nil_append]
    case ahead =>
      rintro job (hmem | ⟨id, task, htask, -⟩)
      · exact ⟨hmem, rfl⟩
      · simp [hentry] at htask
    case begun =>
      intro id task htask
      simp [hentry] at htask
    case fate => exact fun hmem ↦ .inl (.inl hmem)

/-! ## What is seen of the jobs -/

/-- All that is seen during a sequence of operations. -/
def seenDuring (operations : List Operation) : List Event :=
  (empty.applyAll operations).2.flatMap (·.events)

/-- What is seen of a job is the beginning of its course. -/
theorem Sound.isPrefix {job : Job} (sound : Sound declared upcoming past none executor)
    (hjob : job ∈ declared) :
    seen job.name (past ++ executor.events.toList) <+: job.course := by
  obtain hahead | ⟨id, task, htask, hname⟩ | hover := sound.ledger.fate hjob
  · rw [(sound.ledger.ahead hahead).2]
    exact List.nil_prefix
  · obtain ⟨done, hdeclared, -, hcourse⟩ := sound.ledger.begun htask
    obtain rfl := sound.ledger.unique hjob hdeclared hname.symm
    rw [hcourse]
    exact course_isPrefix _ _ _
  · exact hover ▸ List.prefix_refl _

theorem Sound.of_prefix {before after : List Operation}
    (hnames : ((jobs (before ++ after)).map Job.name).Nodup) :
    Sound (jobs (before ++ after)) (jobs after) (seenDuring before) none
        { (empty.applyAll before).1 with events := #[] } ∧
      cost (aboard (empty.applyAll before).1.tasks) +
          ((empty.applyAll before).2.map (·.result.runs)).sum ≤ cost (jobs before) := by
  have hjobs : jobs (before ++ after) = jobs before ++ jobs after := List.flatMap_append
  have hempty : Sound (jobs (before ++ after)) (jobs before ++ jobs after) [] none
      { empty with events := #[] } := hjobs ▸ sound_empty hnames
  obtain ⟨hsound, hcost⟩ := hempty.applyAll
  rw [aboard_empty] at hcost
  exact ⟨hsound, Nat.le_trans hcost (Nat.le_of_eq (Nat.zero_add _))⟩

end Lifecycle.Executor
