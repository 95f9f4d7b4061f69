import Lifecycle.Proofs.Scheduling.Idling
import Lifecycle.Proofs.Scheduling.Stages

/-!
# Executors on which everybody waits

What happened to a task so far tells where it stands: one that is suspended has not been woken since
it began to run, and one that is held has neither been scheduled nor run. Each stage of an executor
keeps this so. A task is therefore never in the line twice, nor after its end, and once the line is
empty whoever has not ended is held or waits at a step that parks.
-/

namespace Lifecycle.Executor

open StateTransition

variable {declared : List Job} {past : List Event} {executor : Executor}
  {queue moved : RunQueue} {held : List (String × TaskId)} {history : History} {id : TaskId}
  {name : String} {standing : Standing} {incidents : List Incident} {agenda : List Operation}
  {stage next : Stage}

/-! ## What is heard of a task -/

theorem heard_append (id : TaskId) (front back : History) :
    heard id (front ++ back) = heard id front ++ heard id back := by
  simp [heard]

theorem heard_self (id : TaskId) (incidents : List Incident) :
    heard id (incidents.map (id, ·)) = incidents := by
  simp [heard, List.filter_map, Function.comp_def]

theorem heard_other {other : TaskId} (hne : id ≠ other) (incidents : List Incident) :
    heard other (incidents.map (id, ·)) = [] := by
  simp [heard, hne]

/-- What was heard of a task that stands somewhere. -/
inductive Told : List Incident → Standing → Prop where
  | held {incidents : List Incident} (hscheduled : .scheduled ∉ incidents)
      (hbegan : .began ∉ incidents) (hended : .ended ∉ incidents) : Told incidents .held
  | ready {incidents : List Incident} (hended : .ended ∉ incidents) : Told incidents .ready
  | running {incidents : List Incident} (hended : .ended ∉ incidents) :
      Told (incidents ++ [.began]) (.running false)
  | woken {incidents : List Incident} (hended : .ended ∉ incidents) :
      Told incidents (.running true)
  | suspended {incidents : List Incident} (hended : .ended ∉ incidents) :
      Told (incidents ++ [.began]) .suspended
  | ended {incidents : List Incident} (hended : .ended ∈ incidents) : Told incidents .ended

namespace Told

theorem not_ended (told : Told incidents standing) (hstanding : standing ≠ .ended) :
    .ended ∉ incidents := by
  cases told with
  | held _ _ hended | ready hended | woken hended => exact hended
  | running hended | suspended hended => simpa using hended
  | ended hended => exact absurd rfl hstanding

theorem wake (told : Told incidents standing) :
    Told (incidents ++ [.woken]) (RunQueue.woken standing) := by
  cases told with
  | held hscheduled hbegan hended =>
    exact .held (by simpa using hscheduled) (by simpa using hbegan) (by simpa using hended)
  | ready hended => exact .ready (by simpa using hended)
  | running hended => exact .woken (by simpa using hended)
  | woken hended => exact .woken (by simpa using hended)
  | suspended hended => exact .ready (by simpa using hended)
  | ended hended => exact .ended (List.mem_append_left _ hended)

theorem suspend {woken : Bool} (told : Told incidents (.running woken)) :
    Told incidents (if woken then .ready else .suspended) := by
  cases told with
  | running hended => exact .suspended hended
  | woken hended => exact .ready hended

end Told

/-! ## What is heard fits the queue -/

/-- What happened to each task tells where it stands, and no held task is lost. -/
structure Chronicled (queue : RunQueue) (held : List (String × TaskId)) (history : History) :
    Prop where
  unknown {id : TaskId} (hnext : queue.next ≤ id) : heard id history = []
  told {id : TaskId} (hlt : id < queue.next) : Told (heard id history) (queue.standing id)
  kept {id : TaskId} (hheld : queue.standing id = .held) : ∃ name, (name, id) ∈ held

theorem chronicled_empty : Chronicled .empty [] [] where
  unknown _ := rfl
  told hlt := absurd hlt (Nat.not_lt_zero _)
  kept {id} hheld := by
    rw [RunQueue.standing_empty] at hheld
    cases hheld

namespace Chronicled

variable (chronicled : Chronicled queue held history)

include chronicled

/-- Something happens to one task, and it alone moves. -/
theorem move (incidents : List Incident) {later : List (String × TaskId)}
    (hstanding : ∀ other, moved.standing other =
      if id = other then standing else queue.standing other)
    (hnext : ∀ other, other < moved.next ↔ other = id ∨ other < queue.next)
    (hkept : ∀ other, moved.standing other = .held → ∃ name, (name, other) ∈ later)
    (htold : Told (heard id history ++ incidents) standing) :
    Chronicled moved later (history ++ incidents.map (id, ·)) where
  unknown {other} hother := by
    obtain ⟨hne, hold⟩ := not_or.1 fun hcase ↦ Nat.not_lt_of_le hother ((hnext other).2 hcase)
    rw [heard_append, heard_other (Ne.symm hne), List.append_nil]
    exact chronicled.unknown (Nat.le_of_not_lt hold)
  told {other} hother := by
    rw [hstanding, heard_append]
    split
    · next heq =>
      subst heq
      rwa [heard_self]
    · next hne =>
      rw [heard_other hne, List.append_nil]
      exact chronicled.told (((hnext other).1 hother).resolve_left (Ne.symm hne))
  kept hheld := hkept _ hheld

/-- Whoever is held after a move was held before it. -/
theorem kept_of_move
    (hstanding : ∀ other, moved.standing other =
      if id = other then standing else queue.standing other)
    (hheld : standing = .held → queue.standing id = .held) (other : TaskId)
    (hmoved : moved.standing other = .held) : ∃ name, (name, other) ∈ held := by
  rw [hstanding] at hmoved
  split at hmoved
  · next heq => exact chronicled.kept (heq ▸ hheld hmoved)
  · exact chronicled.kept hmoved

theorem wake (hlt : id < queue.next) :
    Chronicled (queue.wake id) held (history ++ [(id, .woken)]) := by
  have hstanding := RunQueue.standing_wake queue id
  refine chronicled.move [.woken] hstanding (fun other ↦ ?_)
    (chronicled.kept_of_move hstanding fun hheld ↦ ?_) (chronicled.told hlt).wake
  · rw [RunQueue.next_wake]
    exact ⟨.inr, fun hcase ↦ hcase.elim (· ▸ hlt) fun hother ↦ hother⟩
  · generalize queue.standing id = before at hheld
    cases before <;> cases hheld
    rfl

theorem spawn : Chronicled queue.spawn.2 held (history ++ [(queue.next, .scheduled)]) := by
  have hstanding := RunQueue.standing_spawn queue
  refine chronicled.move [.scheduled] hstanding (fun other ↦ ?_)
    (chronicled.kept_of_move hstanding nofun) ?_
  · rw [RunQueue.next_spawn, Nat.lt_succ_iff_lt_or_eq, or_comm]
  · rw [chronicled.unknown (Nat.le_refl _)]
    exact .ready (by simp)

theorem prepare (name : String) :
    Chronicled queue.prepare.2 ((name, queue.next) :: held) history := by
  have hstanding := RunQueue.standing_prepare queue
  rw [← List.append_nil history]
  refine chronicled.move [] hstanding (fun other ↦ ?_) (fun other hheld ↦ ?_) ?_
  · change other < queue.next + 1 ↔ _
    rw [Nat.lt_succ_iff_lt_or_eq, or_comm]
  · rw [hstanding] at hheld
    split at hheld
    · next heq => exact ⟨name, heq ▸ List.mem_cons_self⟩
    · obtain ⟨kept, hmem⟩ := chronicled.kept hheld
      exact ⟨kept, List.mem_cons_of_mem _ hmem⟩
  · rw [chronicled.unknown (Nat.le_refl _)]
    exact .held (by simp) (by simp) (by simp)

/-- A known task moves and is not held then; those that are held besides it still are. -/
theorem shift (incidents : List Incident) {later : List (String × TaskId)}
    (hnext : moved.next = queue.next) (hlt : id < queue.next)
    (hstanding : ∀ other, moved.standing other =
      if id = other then standing else queue.standing other)
    (hlater : ∀ entry ∈ held, id ≠ entry.2 → entry ∈ later) (hmoved : standing ≠ .held)
    (htold : Told (heard id history ++ incidents) standing) :
    Chronicled moved later (history ++ incidents.map (id, ·)) := by
  refine chronicled.move incidents hstanding (fun other ↦ ?_) (fun other hkept ↦ ?_) htold
  · rw [hnext]
    exact ⟨.inr, fun hcase ↦ hcase.elim (· ▸ hlt) fun hother ↦ hother⟩
  · rw [hstanding] at hkept
    split at hkept
    · exact absurd hkept hmoved
    · next hne =>
      obtain ⟨name, hmem⟩ := chronicled.kept hkept
      exact ⟨name, hlater _ hmem hne⟩

theorem schedule {later : List (String × TaskId)} (hheld : queue.standing id = .held)
    (hlt : id < queue.next) (hlater : ∀ entry ∈ held, id ≠ entry.2 → entry ∈ later) :
    Chronicled (queue.schedule id) later (history ++ [(id, .scheduled)]) := by
  have hended := (chronicled.told hlt).not_ended (by simp [hheld])
  refine chronicled.shift [.scheduled] ?_ hlt (RunQueue.standing_schedule hheld) hlater nofun
    (.ready (by simpa using hended))
  rw [RunQueue.schedule, hheld]
  rfl

theorem start {later : List (String × TaskId)} (hheld : queue.standing id = .held)
    (hlt : id < queue.next) (hlater : ∀ entry ∈ held, id ≠ entry.2 → entry ∈ later) :
    Chronicled (queue.start id) later (history ++ [(id, .began)]) := by
  have hended := (chronicled.told hlt).not_ended (by simp [hheld])
  refine chronicled.shift [.began] ?_ hlt (RunQueue.standing_start hheld) hlater nofun
    (.running hended)
  rw [RunQueue.start, hheld]
  rfl

theorem fetch (hready : queue.standing id = .ready) (hlt : id < queue.next)
    (line : List TaskId) :
    Chronicled { queue.place id (.running false) with line } held (history ++ [(id, .began)]) := by
  have hended := (chronicled.told hlt).not_ended (by simp [hready])
  exact chronicled.shift [.began] rfl hlt (RunQueue.standing_place queue id · _)
    (fun _ hmem _ ↦ hmem) nofun (.running hended)

theorem suspend {woken : Bool} (hrunning : queue.standing id = .running woken)
    (hlt : id < queue.next) : Chronicled (queue.suspend id).1 held history := by
  have htold := hrunning ▸ chronicled.told hlt
  rw [← List.append_nil history]
  refine chronicled.shift [] (RunQueue.next_suspend queue id) hlt
    (RunQueue.standing_suspend hrunning) (fun _ hmem _ ↦ hmem) (by cases woken <;> nofun) ?_
  rw [List.append_nil]
  exact htold.suspend

/-- A task that gives way is woken before it is suspended. -/
theorem giveWay {woken : Bool} (hrunning : queue.standing id = .running woken)
    (hlt : id < queue.next) (how : SelfWake) :
    Chronicled ((how.count.repeat (fun queue ↦ queue.wake id) queue).suspend id).1 held
      (history ++ List.replicate how.count (id, .woken)) := by
  obtain ⟨-, hnext, hstanding⟩ := RunQueue.suspend_woken hrunning how
  have hended := (chronicled.told hlt).not_ended (by simp [hrunning])
  rw [← List.map_replicate (f := (id, ·))]
  refine chronicled.shift _ hnext hlt hstanding (fun _ hmem _ ↦ hmem) nofun (.ready ?_)
  simpa using hended

theorem finish (hlt : id < queue.next) :
    Chronicled (queue.finish id) held (history ++ [(id, .ended)]) :=
  chronicled.shift [.ended] rfl hlt (RunQueue.standing_place queue id · _) (fun _ hmem _ ↦ hmem)
    nofun (.ended (by simp))

end Chronicled

/-- The use of a waker that is there is heard of by its task. -/
theorem Chronicled.deliver (chronicled : Chronicled executor.queue executor.held history)
    (hknown : ∀ id, (name, id) ∈ executor.wakers → id < executor.queue.next) (keep : Bool) :
    Chronicled (executor.wake keep name).1.queue (executor.wake keep name).1.held
      (history ++ executor.delivered name) := by
  unfold Executor.wake delivered
  cases hlookup : executor.wakers.lookup name with
  | none => simpa using chronicled
  | some id => exact chronicled.wake (hknown id (mem_of_lookup hlookup))

/-! ## Stages that are in order -/

/-- The executor, with the task that runs as it is during its run. -/
def Stage.view (stage : Stage) : Executor :=
  match stage.busy with
  | some (id, task) => stage.executor.holding id task
  | none => stage.executor

/-- A stage is in order, and what happened fits it. -/
structure Stage.Fits (declared : List Job) (stage : Stage) : Prop where
  sound : ∃ past,
    Sound declared (jobs stage.agenda) past (stage.busy.map Prod.fst) stage.view
  chronicled : Chronicled stage.executor.queue stage.executor.held stage.history

namespace Stage

theorem Fits.settled (fits : Fits declared stage) (hbusy : stage.busy = none) :
    ∃ past, Sound declared (jobs stage.agenda) past none stage.executor := by
  obtain ⟨past, sound⟩ := fits.sound
  rw [view, hbusy] at sound
  exact ⟨past, sound⟩

theorem Fits.running {task : Task} (fits : Fits declared stage)
    (hbusy : stage.busy = some (id, task)) :
    ∃ past, Sound declared (jobs stage.agenda) past (some id) (stage.executor.holding id task) := by
  obtain ⟨past, sound⟩ := fits.sound
  rw [view, hbusy] at sound
  exact ⟨past, sound⟩

/-- A running task does a step, or ends. -/
theorem Fits.proceed {task : Task} (fits : Fits declared stage)
    (hbusy : stage.busy = some (id, task)) : Fits declared (stage.proceed id task) := by
  obtain ⟨past, sound⟩ := fits.running hbusy
  obtain ⟨name, index, steps⟩ := task
  have chronicled := fits.chronicled
  obtain ⟨woken, hwoken⟩ := sound.standing_busy
  have hrunning : stage.executor.queue.standing id = .running woken := hwoken
  have hlt : id < stage.executor.queue.next := sound.full.numbered (by simp [hwoken])
  cases steps with
  | nil => exact ⟨⟨past, sound.finish (shows_ended name)⟩, chronicled.finish hlt⟩
  | cons step rest =>
    cases step with
    | idle => exact ⟨⟨past, sound.advance (shows_reached name index)⟩, chronicled⟩
    | yield how =>
      have hadvanced := sound.advance (shows_reached name index)
      exact ⟨⟨past, hadvanced.suspend_woken how⟩, chronicled.giveWay hrunning hlt how⟩
    | park =>
      have hadvanced := sound.advance (shows_reached name index)
      have hsuspended := hadvanced.leaveWaker.suspend fun _ ↦ sound.placed_parked
      refine ⟨⟨past, hsuspended⟩, ?_⟩
      have hqueue : ((stage.executor.emit (.reached name index)).leaveWaker name id).queue =
          stage.executor.queue := (congrArg Executor.queue hadvanced.leaveWaker_eq :)
      change Chronicled
        (((stage.executor.emit (.reached name index)).leaveWaker name id).queue.suspend id).1
        stage.executor.held stage.history
      rw [hqueue]
      exact chronicled.suspend hrunning hlt
    | wake keep target =>
      have hreached := sound.wake keep target
      rw [wake_holding] at hreached
      have hadvanced := hreached.advance (shows_woke name index keep target
        (stage.executor.wake keep target).2)
      have hknown (woken : TaskId) (hmem : (target, woken) ∈ stage.executor.wakers) :
          woken < stage.executor.queue.next := (sound.waker hmem).1
      simp only [Stage.proceed, wake_emit]
      exact ⟨⟨past, hadvanced⟩, chronicled.deliver hknown keep⟩
    | spawn other steps =>
      have hadvanced := sound.advance (shows_reached name index)
      have hspawned := hadvanced.spawn
      have hne : id ≠ (stage.executor.noting [.reached name index]).queue.next := Nat.ne_of_lt hlt
      rw [spawn_holding hne] at hspawned
      exact ⟨⟨past, hspawned⟩, chronicled.spawn⟩

/-- A task that the queue marks as running begins to. -/
theorem fits_commence (sound : Sound declared (jobs stage.agenda) past (some id) stage.executor)
    (chronicled : Chronicled stage.executor.queue stage.executor.held
      (stage.history ++ [(id, .began)])) : Fits declared (stage.commence id) := by
  obtain ⟨task, htask, hholding⟩ := sound.found
  rw [← hholding] at sound
  simp only [Stage.commence, htask]
  exact ⟨⟨past, sound⟩, chronicled⟩

/-- The head of the line begins to run, or the line is empty. -/
theorem Fits.fetch (fits : Fits declared stage) (hbusy : stage.busy = none) :
    Fits declared stage.fetch := by
  obtain ⟨past, sound⟩ := fits.settled hbusy
  unfold Stage.fetch
  cases hfetch : stage.executor.queue.fetch? with
  | none => exact ⟨fits.sound, fits.chronicled⟩
  | some entry =>
    obtain ⟨fetched, queue⟩ := entry
    obtain ⟨id, line, hline, rfl, rfl⟩ := sound.full.fetch hfetch
    obtain ⟨_, heq, hrunning⟩ := sound.fetch hfetch
    cases heq
    have hready := sound.full.ready (hline ▸ List.mem_cons_self : id ∈ stage.executor.queue.line)
    have hlt : id < stage.executor.queue.next := sound.full.numbered (by simp [hready])
    have hquiet (name : String) : seen name [.logged .taskFetched] = [] := rfl
    exact fits_commence (hrunning.noting hquiet) (fits.chronicled.fetch hready hlt line)

/-- An operation begins. -/
theorem fits_take {operation : Operation}
    (sound : Sound declared (operation.jobs ++ jobs agenda) past none executor)
    (chronicled : Chronicled executor.queue executor.held history) :
    Fits declared (Stage.take (between executor agenda history) operation) := by
  cases operation with
  | spawn name steps => exact ⟨⟨past, sound.spawn⟩, chronicled.spawn⟩
  | prepare name steps =>
    refine ⟨⟨past, sound.prepare⟩, ?_⟩
    simp only [Stage.take, between, sound.prepare_eq, sound.lookup_held, sound.others_held]
    simpa using chronicled.prepare name
  | schedule name =>
    replace sound : Sound declared (jobs agenda) past none executor := sound
    simp only [Stage.take, between, takeHeld?]
    cases hlookup : executor.held.lookup name with
    | none => exact ⟨⟨past, sound⟩, chronicled⟩
    | some id =>
      have hmem := mem_of_lookup hlookup
      have hheld := (sound.held hmem).1
      have hlt : id < executor.queue.next := sound.full.numbered (by simp [hheld])
      exact ⟨⟨past, sound.schedule hmem⟩,
        chronicled.schedule hheld hlt (sound.mem_others hmem)⟩
  | runHeld name =>
    replace sound : Sound declared (jobs agenda) past none executor := sound
    simp only [Stage.take, between, takeHeld?]
    cases hlookup : executor.held.lookup name with
    | none => exact ⟨⟨past, sound⟩, chronicled⟩
    | some id =>
      have hmem := mem_of_lookup hlookup
      have hheld := (sound.held hmem).1
      have hlt : id < executor.queue.next := sound.full.numbered (by simp [hheld])
      exact fits_commence (sound.start hmem)
        (chronicled.start hheld hlt (sound.mem_others hmem))
  | run => exact ⟨⟨past, sound⟩, chronicled⟩
  | wake keep name =>
    have hknown (woken : TaskId) (hmem : (name, woken) ∈ executor.wakers) :
        woken < executor.queue.next := (sound.waker hmem).1
    exact ⟨⟨past, sound.wake keep name⟩, chronicled.deliver hknown keep⟩
  | other => exact ⟨⟨past, sound⟩, chronicled⟩

/-- Whatever the next stage is, it is in order. -/
theorem Fits.advance (fits : Fits declared stage) (hnext : next ∈ stage.advance) :
    Fits declared next := by
  obtain ⟨executor, busy, draining, agenda, history⟩ := stage
  cases busy with
  | some entry =>
    obtain rfl := Option.some_inj.1 hnext
    exact fits.proceed rfl
  | none =>
    cases draining with
    | true =>
      obtain rfl := Option.some_inj.1 hnext
      exact fits.fetch rfl
    | false =>
      cases agenda with
      | nil => cases hnext
      | cons operation agenda =>
        obtain rfl := Option.some_inj.1 hnext
        obtain ⟨⟨past, sound⟩, chronicled⟩ := fits
        exact fits_take sound.clear chronicled

/-- All stages that come after one in order are in order. -/
theorem Fits.reaches (fits : Fits declared stage) (hreaches : Reaches Stage.advance stage next) :
    Fits declared next := by
  induction hreaches with
  | refl => exact fits
  | tail _ hnext ih => exact ih.advance hnext

theorem fits_start {operations : List Operation} (hnames : ((jobs operations).map Job.name).Nodup) :
    Fits (jobs operations) (start operations) :=
  ⟨⟨[], sound_empty hnames⟩, chronicled_empty⟩

/-- What a sequence of operations makes of an executor is reached. -/
theorem reaches_between {before after : List Operation}
    (hnames : ((jobs (before ++ after)).map Job.name).Nodup) :
    ∃ history, Reaches advance (start (before ++ after))
      (between (empty.applyAll before).1 after history) := by
  induction before using List.reverseRecOn generalizing after with
  | nil => exact ⟨[], .refl⟩
  | append_singleton before operation ih =>
    rw [List.append_assoc, List.singleton_append] at hnames ⊢
    obtain ⟨history, hbefore⟩ := ih hnames
    have hidle : ({ (empty.applyAll before).1 with events := #[] } : Executor).Idles :=
      (Sound.of_prefix hnames).1.idles
    obtain ⟨later, hoperation⟩ := reaches_apply { (empty.applyAll before).1 with events := #[] }
      after history operation fun _ ↦ hidle.fetch_eq
    rw [applyAll_append]
    exact ⟨later, (hbefore.tail rfl).trans hoperation⟩

/-! ## Tasks that wait -/

/-- Nobody is in the line twice, or after its end. -/
structure Orderly (stage : Stage) : Prop where
  nodup : stage.executor.queue.line.Nodup
  unfinished {id : TaskId} (hmem : id ∈ stage.executor.queue.line) :
    .ended ∉ heard id stage.history

theorem Fits.orderly (fits : Fits declared stage) : stage.Orderly := by
  obtain ⟨⟨past, sound⟩, chronicled⟩ := fits
  have hqueue : stage.view.queue = stage.executor.queue := by
    unfold view
    split <;> rfl
  have hfull := hqueue ▸ sound.full
  refine ⟨hfull.nodup, fun {id} hmem ↦ ?_⟩
  have hready := hfull.ready hmem
  exact (chronicled.told (hfull.numbered (by simp [hready]))).not_ended (by simp [hready])

/-- A task is held, and was neither scheduled nor run. -/
structure Holds (stage : Stage) (id : TaskId) : Prop where
  held : ∃ name, (name, id) ∈ stage.executor.held
  unscheduled : .scheduled ∉ heard id stage.history
  unbegun : .began ∉ heard id stage.history

/-- A task is suspended after a step that parks, and it was not woken since: the last that was heard
of it is that a run of it began. -/
structure Parks (declared : List Job) (stage : Stage) (id : TaskId) : Prop where
  suspended : stage.executor.queue.standing id = .suspended
  parked : ∃ name done rest, (⟨name, done ++ .park :: rest⟩ : Job) ∈ declared ∧
    stage.executor.tasks[id]? = some ⟨name, done.length + 1, rest⟩
  unwoken : ∃ earlier, heard id stage.history = earlier ++ [.began]

/-- Whoever has not ended waits while nobody is in the line. -/
theorem Fits.waits (fits : Fits declared stage) (hbusy : stage.busy = none)
    (hline : stage.executor.queue.line = []) (hlt : id < stage.executor.queue.next)
    (hunfinished : .ended ∉ heard id stage.history) : stage.Holds id ∨ stage.Parks declared id := by
  obtain ⟨past, sound⟩ := fits.settled hbusy
  have chronicled := fits.chronicled
  have hplaced := sound.placed id
  obtain ⟨incidents, hheard, htold⟩ : ∃ incidents, heard id stage.history = incidents ∧
      Told incidents (stage.executor.queue.standing id) := ⟨_, rfl, chronicled.told hlt⟩
  cases hstanding : stage.executor.queue.standing id with
  | held =>
    rw [hstanding] at htold
    cases htold with
    | held hscheduled hbegan =>
      exact .inl ⟨chronicled.kept hstanding, hheard ▸ hscheduled, hheard ▸ hbegan⟩
  | suspended =>
    rw [hstanding] at htold hplaced
    obtain ⟨found, hfound⟩ : ∃ found, stage.executor.tasks[id]? = found := ⟨_, rfl⟩
    rw [hfound] at hplaced
    cases htold with
    | suspended _ =>
      cases hplaced with
      | suspended hparked => exact .inr ⟨hstanding, ⟨_, _, _, hparked, hfound⟩, ⟨_, hheard⟩⟩
  | ready =>
    have hmem := sound.full.waits hstanding
    rw [hline] at hmem
    cases hmem
  | running woken => cases sound.runs_iff.1 ⟨woken, hstanding⟩
  | closing =>
    rw [hstanding] at hplaced
    cases hplaced
  | ended =>
    rw [hstanding] at htold
    cases htold with
    | ended hended => exact absurd (hheard ▸ hended) hunfinished

end Stage

/-- At no stage is anybody in the line twice, or after its end, and whenever the executor has been
run the line is empty and whoever has not ended is held or waits where it parked. The ids that are
given out are those below the next one. -/
structure WaitsKept (operations : List Operation) : Prop where
  orderly {stage : Stage} (hreaches : Reaches Stage.advance (.start operations) stage) :
    stage.Orderly
  reached {before after : List Operation} (hsplit : operations = before ++ after) :
    ∃ history, Reaches Stage.advance (.start operations)
      (.between (empty.applyAll before).1 after history)
  waiting {before after : List Operation} {history : History}
    (hsplit : operations = before ++ .run :: after)
    (hreaches : Reaches Stage.advance (.start operations)
      (.between (empty.applyAll (before ++ [.run])).1 after history)) :
    (empty.applyAll (before ++ [.run])).1.queue.line = [] ∧
      ∀ id < (empty.applyAll (before ++ [.run])).1.queue.next, .ended ∉ heard id history →
        let stage := Stage.between (empty.applyAll (before ++ [.run])).1 after history
        stage.Holds id ∨ stage.Parks (jobs operations) id

theorem waitsKept {operations : List Operation}
    (hnames : ((jobs operations).map Job.name).Nodup) : WaitsKept operations where
  orderly hreaches := ((Stage.fits_start hnames).reaches hreaches).orderly
  reached hsplit := by
    subst hsplit
    exact Stage.reaches_between hnames
  waiting {before after history} hsplit hreaches := by
    have fits := (Stage.fits_start hnames).reaches hreaches
    subst hsplit
    have hline : (empty.applyAll (before ++ [.run])).1.queue.line = [] := by
      have hidle : ({ (empty.applyAll before).1 with events := #[] } : Executor).Idles :=
        (Sound.of_prefix hnames).1.idles
      rw [applyAll_append]
      exact RunQueue.line_of_fetch hidle.fetch_eq
    exact ⟨hline, fun id hlt hunfinished ↦ fits.waits rfl hline hlt hunfinished⟩

/-- A task that is woken twice while it waits, by itself while it runs, and by another one; a third
one is never given to the line. -/
def nightWatch : List Operation :=
  [.spawn "sleeper" [.park, .wake true "sleeper", .park, .park, .park],
    .prepare "reserve" [.park], .run, .wake true "sleeper", .wake true "sleeper", .run,
    .spawn "caller" [.wake false "sleeper", .yield .twice], .run]

theorem waitsKept_nightWatch :
    ((jobs nightWatch).map Job.name).Nodup ∧ WaitsKept nightWatch :=
  ⟨by decide, waitsKept (by decide)⟩

end Lifecycle.Executor
