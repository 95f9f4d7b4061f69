import Lifecycle.Proofs.Scheduling.Idling

/-!
# Tasks that take turns

Tasks that do nothing but give way are served in rounds. Fresh tasks enter at the head of the line,
so that the last one runs first; whoever gives way goes to the tail, be it woken once or twice.
A round therefore leaves the line in the order in which it found it, less those that ended.
-/

namespace Lifecycle.Executor

/-- A task that gives way, in some manner each time, and then ends. -/
structure Yielder where
  name : String
  ways : List SelfWake

namespace Yielder

def operation (yielder : Yielder) : Operation :=
  .spawn yielder.name (yielder.ways.map .yield)

/-- One run each time it gives way, and one more for its end. -/
def runs (yielder : Yielder) : Nat := yielder.ways.length + 1

/-- The task after it gave way some times. -/
def after (round : Nat) (yielder : Yielder) : Task :=
  ⟨yielder.name, round, (yielder.ways.drop round).map .yield⟩

/-- What is seen of its run in a round. -/
def turn (round : Nat) (yielder : Yielder) : List Event :=
  [.logged .taskFetched,
    if round < yielder.ways.length then .reached yielder.name round else .ended yielder.name]

end Yielder

/-- What is seen of a round, in which all run who have not ended, the last one first. -/
def round (yielders : List Yielder) (number : Nat) : List Event :=
  (yielders.reverse.filter (number ≤ ·.ways.length)).flatMap (·.turn number)

/-- What is seen of all rounds. -/
def rounds (yielders : List Yielder) : List Event :=
  (List.range ((yielders.map Yielder.runs).foldr max 0)).flatMap (round yielders)

variable {executor next last : Executor} {id : TaskId} {name : String} {index count : Nat}
  {steps : List Step} {fresh later : List Event} {crew : List (TaskId × Task)}
  {queue : RunQueue} {task : Task}

/-! ## Turns -/

/-- Some runs lead from one executor to another, and some events are seen of them. -/
structure Turns (executor : Executor) (count : Nat) (fresh : List Event) (next : Executor) :
    Prop where
  runUpTo_eq (limit : Nat) :
    runUpTo (limit + count) executor = ((runUpTo limit next).1, (runUpTo limit next).2 + count)
  events_eq : next.events.toList = executor.events.toList ++ fresh

theorem turns_refl (executor : Executor) : Turns executor 0 [] executor where
  runUpTo_eq _ := rfl
  events_eq := (List.append_nil _).symm

theorem Turns.trans {more : Nat} (first : Turns executor count fresh next)
    (second : Turns next more later last) :
    Turns executor (count + more) (fresh ++ later) last where
  runUpTo_eq limit := by
    rw [← Nat.add_assoc, Nat.add_right_comm, first.runUpTo_eq, second.runUpTo_eq, Nat.add_assoc,
      Nat.add_comm more]
  events_eq := by rw [second.events_eq, first.events_eq, List.append_assoc]

/-- The head of the line has its turn. -/
theorem turns_run (hfetch : executor.queue.fetch? = some (.toRun id, queue)) :
    let ran := (({ executor with queue } : Executor).emit (.logged .taskFetched)).run id
    ran.1.events.toList = executor.events.toList ++ fresh → Turns executor 1 fresh ran.1 := by
  intro ran hevents
  refine ⟨fun limit ↦ ?_, hevents⟩
  rw [runUpTo]
  simp only [hfetch]
  rfl

/-- The line is made of these tasks, which are to run. -/
structure LinedUp (executor : Executor) (crew : List (TaskId × Task)) : Prop where
  line_eq : executor.queue.line = crew.map Prod.fst
  nodup : (crew.map Prod.fst).Nodup
  ready {id : TaskId} {task : Task} (hmem : (id, task) ∈ crew) :
    executor.queue.standing id = .ready ∧ executor.tasks[id]? = some task ∧
      id < executor.queue.next

namespace LinedUp

theorem fetch_eq (lined : LinedUp executor ((id, task) :: crew)) :
    executor.queue.fetch? = some (.toRun id,
      { executor.queue.place id (.running false) with line := crew.map Prod.fst }) := by
  have hready : ({ executor.queue with line := crew.map Prod.fst } : RunQueue).standing id =
      .ready := (lined.ready List.mem_cons_self).1
  rw [RunQueue.fetch?, lined.line_eq]
  simp only [List.map_cons, hready]
  rfl

/-- The others stay lined up if only the first one is changed. -/
theorem others (lined : LinedUp executor ((id, task) :: crew)) {left : RunQueue}
    {tasks : Std.ExtTreeMap TaskId Task}
    (hstanding : ∀ other, id ≠ other → left.standing other = executor.queue.standing other)
    (htasks : ∀ other, id ≠ other → tasks[other]? = executor.tasks[other]?)
    (hnext : left.next = executor.queue.next) {other : TaskId} {later : Task}
    (hmem : (other, later) ∈ crew) :
    left.standing other = .ready ∧ tasks[other]? = some later ∧ other < left.next := by
  have hne : id ≠ other := by
    rintro rfl
    exact (List.nodup_cons.1 lined.nodup).1 (List.mem_map.2 ⟨_, hmem, rfl⟩)
  rw [hstanding other hne, htasks other hne, hnext]
  exact lined.ready (List.mem_cons_of_mem _ hmem)

/-- The first one ends. -/
theorem ends (lined : LinedUp executor ((id, ⟨name, index, []⟩) :: crew)) :
    ∃ next, Turns executor 1 [.logged .taskFetched, .ended name] next ∧ LinedUp next crew := by
  have htask := (lined.ready List.mem_cons_self).2.1
  refine ⟨_, turns_run lined.fetch_eq ?_, ?_⟩
  · simp [Executor.run, Executor.emit, htask, perform, Executor.finish]
  · simp only [Executor.run, Executor.emit, htask, perform, Executor.finish]
    refine ⟨rfl, (List.nodup_cons.1 lined.nodup).2, fun {other left} hmem ↦ ?_⟩
    refine lined.others (fun other hne ↦ ?_) (fun other hne ↦ ?_) ?_ hmem
    · exact (RunQueue.standing_place_of_ne hne).trans (RunQueue.standing_place_of_ne hne)
    · simp [Std.ExtTreeMap.getElem?_erase, hne]
    · rfl

/-- The first one gives way. -/
theorem yields {how : SelfWake}
    (lined : LinedUp executor ((id, ⟨name, index, .yield how :: steps⟩) :: crew)) :
    ∃ next, Turns executor 1 [.logged .taskFetched, .reached name index] next ∧
      LinedUp next (crew ++ [(id, ⟨name, index + 1, steps⟩)]) := by
  obtain ⟨-, htask, hlt⟩ := lined.ready List.mem_cons_self
  have hrunning : ({ executor.queue.place id (.running false) with
      line := crew.map Prod.fst } : RunQueue).standing id = .running false :=
    RunQueue.standing_place_self _ _ _
  obtain ⟨hline, hnext, hstanding⟩ := RunQueue.suspend_woken hrunning how
  refine ⟨_, turns_run lined.fetch_eq ?_, ?_⟩
  · simp [Executor.run, Executor.emit, htask, perform, Executor.suspend]
  · simp only [Executor.run, Executor.emit, htask, perform, Executor.suspend]
    constructor
    case line_eq => simpa using hline
    case nodup =>
      have hnodup := List.nodup_cons.1 lined.nodup
      rw [List.map_append]
      exact (List.perm_append_singleton _ _).nodup_iff.2 (List.nodup_cons.2 hnodup)
    case ready =>
      intro other left hmem
      obtain hothers | hself := List.mem_append.1 hmem
      · refine lined.others (fun other hne ↦ ?_) (fun other hne ↦ ?_) hnext hothers
        · rw [hstanding, if_neg hne]
          exact RunQueue.standing_place_of_ne hne
        · simp [Std.ExtTreeMap.getElem?_insert, hne]
      · obtain ⟨rfl, rfl⟩ := Prod.mk.inj (List.mem_singleton.1 hself)
        refine ⟨?_, Std.ExtTreeMap.getElem?_insert_self, Nat.lt_of_lt_of_eq hlt hnext.symm⟩
        rw [hstanding, if_pos rfl]

/-- A fresh task enters at the head of the line. -/
theorem spawn (lined : LinedUp executor crew) (name : String) (steps : List Step) :
    LinedUp (executor.spawn name steps) ((executor.queue.next, ⟨name, 0, steps⟩) :: crew) := by
  have hspawn : executor.spawn name steps =
      { executor with
        queue := executor.queue.spawn.2
        tasks := executor.tasks.insert executor.queue.next ⟨name, 0, steps⟩ } := by
    unfold Executor.spawn
    rw [RunQueue.spawn_eq]
  have hfresh (id : TaskId) (task : Task) (hmem : (id, task) ∈ crew) :
      executor.queue.next ≠ id := Nat.ne_of_gt (lined.ready hmem).2.2
  rw [hspawn]
  constructor
  case line_eq => rw [RunQueue.line_spawn, lined.line_eq, List.map_cons]
  case nodup =>
    refine List.nodup_cons.2 ⟨fun hmem ↦ ?_, lined.nodup⟩
    obtain ⟨⟨id, task⟩, hentry, heq⟩ := List.mem_map.1 hmem
    exact hfresh id task hentry heq.symm
  case ready =>
    intro id task hmem
    rw [RunQueue.standing_spawn, RunQueue.next_spawn]
    obtain hself | hothers := List.mem_cons.1 hmem
    · obtain ⟨rfl, rfl⟩ := Prod.mk.inj hself
      exact ⟨if_pos rfl, Std.ExtTreeMap.getElem?_insert_self, Nat.lt_succ_self _⟩
    · obtain ⟨hready, htask, hlt⟩ := lined.ready hothers
      have hne := hfresh id task hothers
      refine ⟨by rw [if_neg hne, hready], ?_, Nat.lt_succ_of_lt hlt⟩
      rw [Std.ExtTreeMap.getElem?_insert, if_neg (by simpa using hne), htask]

end LinedUp

/-- Different tasks on board cost their runs each. -/
theorem cost_le_aboard {tasks : Std.ExtTreeMap TaskId Task} (hnodup : (crew.map Prod.fst).Nodup)
    (hcrew : ∀ entry ∈ crew, tasks[entry.1]? = some entry.2) :
    cost (crew.flatMap (·.2.jobs)) ≤ cost (aboard tasks) := by
  induction crew generalizing tasks with
  | nil => exact Nat.zero_le _
  | cons entry crew ih =>
    have hothers := (List.nodup_cons.1 hnodup).1
    have hentry := hcrew entry List.mem_cons_self
    rw [List.flatMap_cons, cost_append, cost_perm (aboard_of_getElem? hentry), cost_append]
    refine Nat.add_le_add_left (ih (List.nodup_cons.1 hnodup).2 fun other hmem ↦ ?_) _
    have hne : entry.1 ≠ other.1 := fun heq ↦ hothers (heq ▸ List.mem_map_of_mem hmem)
    rw [Std.ExtTreeMap.getElem?_erase, if_neg (by simpa using hne)]
    exact hcrew other (List.mem_cons_of_mem _ hmem)

/-! ## Rounds -/

/-- The place of a task in the line, at the beginning of a round. -/
def place (number : Nat) (entry : TaskId × Yielder) : TaskId × Task :=
  (entry.1, entry.2.after number)

variable {number : Nat} {entry : TaskId × Yielder} {entries : List (TaskId × Yielder)}

/-- Who has not ended gives way in its turn, or ends. -/
theorem LinedUp.turn (hrest : number ≤ entry.2.ways.length)
    (lined : LinedUp executor (place number entry :: crew)) :
    ∃ next, Turns executor 1 (entry.2.turn number) next ∧
      LinedUp next (crew ++
        ([entry].filter (number < ·.2.ways.length)).map (place (number + 1))) := by
  obtain ⟨id, yielder⟩ := entry
  by_cases hmore : number < yielder.ways.length
  · have hsteps : yielder.after number = ⟨yielder.name, number,
        .yield yielder.ways[number] :: (yielder.ways.drop (number + 1)).map .yield⟩ := by
      rw [Yielder.after, List.drop_eq_getElem_cons hmore, List.map_cons]
    rw [place, hsteps] at lined
    obtain ⟨next, hturn, hnext⟩ := lined.yields
    refine ⟨next, ?_, ?_⟩
    · rwa [Yielder.turn, if_pos hmore]
    · rw [List.filter_eq_self.2 (by simpa using hmore)]
      exact hnext
  · have hsteps : yielder.after number = ⟨yielder.name, number, []⟩ := by
      rw [Yielder.after, List.drop_eq_nil_of_le (Nat.le_of_not_lt hmore), List.map_nil]
    rw [place, hsteps] at lined
    obtain ⟨next, hturn, hnext⟩ := lined.ends
    refine ⟨next, ?_, ?_⟩
    · rwa [Yielder.turn, if_neg hmore]
    · rw [List.filter_eq_nil_iff.2 (by simpa using hmore), List.map_nil, List.append_nil]
      exact hnext

/-- The tasks at the head of the line have their turns, and those that are not at their end enter
at the tail. -/
theorem LinedUp.turns (hrest : ∀ entry ∈ entries, number ≤ entry.2.ways.length)
    (lined : LinedUp executor (entries.map (place number) ++ crew)) :
    ∃ next, Turns executor entries.length (entries.flatMap (·.2.turn number)) next ∧
      LinedUp next (crew ++
        (entries.filter (number < ·.2.ways.length)).map (place (number + 1))) := by
  induction entries generalizing executor crew with
  | nil =>
    refine ⟨executor, turns_refl executor, ?_⟩
    simpa using lined
  | cons entry entries ih =>
    rw [List.map_cons, List.cons_append] at lined
    obtain ⟨next, hturn, hnext⟩ := lined.turn (hrest entry List.mem_cons_self)
    rw [List.append_assoc] at hnext
    obtain ⟨last, hturns, hlast⟩ :=
      ih (fun other hmem ↦ hrest other (List.mem_cons_of_mem _ hmem)) hnext
    refine ⟨last, ?_, ?_⟩
    · have htrans := hturn.trans hturns
      rw [Nat.add_comm] at htrans
      exact htrans
    · rw [← List.singleton_append, List.filter_append, List.map_append, ← List.append_assoc]
      exact hlast

/-- A round takes a run of each, and the later rounds are those of the tasks that are left. -/
theorem sum_runs (hrest : ∀ entry ∈ entries, number ≤ entry.2.ways.length) :
    entries.length + ((entries.filter (number < ·.2.ways.length)).map fun entry ↦
        entry.2.runs - (number + 1)).sum =
      (entries.map fun entry ↦ entry.2.runs - number).sum := by
  induction entries with
  | nil => rfl
  | cons entry entries ih =>
    have hothers := ih fun other hmem ↦ hrest other (List.mem_cons_of_mem _ hmem)
    have hentry := hrest entry List.mem_cons_self
    rw [List.length_cons, List.filter_cons, List.map_cons, List.sum_cons, ← hothers]
    unfold Yielder.runs
    split
    · rw [List.map_cons, List.sum_cons]
      omega
    · next hended =>
      have hlast : entry.2.ways.length = number := by
        have hle := Nat.le_of_not_lt (of_decide_eq_false (Bool.not_eq_true _ ▸ hended))
        omega
      omega

/-- The rounds after the first are those of the tasks that are left. -/
theorem flatMap_range' (hrest : ∀ entry ∈ entries, number ≤ entry.2.ways.length) (more : Nat) :
    ((List.range' number (more + 1)).flatMap fun number ↦
        (entries.filter (number ≤ ·.2.ways.length)).flatMap (·.2.turn number)) =
      entries.flatMap (·.2.turn number) ++
        (List.range' (number + 1) more).flatMap fun later ↦
          ((entries.filter (number < ·.2.ways.length)).filter (later ≤ ·.2.ways.length)).flatMap
            (·.2.turn later) := by
  have hall : entries.filter (number ≤ ·.2.ways.length) = entries :=
    List.filter_eq_self.2 fun entry hmem ↦ decide_eq_true (hrest entry hmem)
  rw [List.range'_succ, List.flatMap_cons, hall]
  congr 1
  refine List.flatMap_congr fun later hlater ↦ ?_
  have hlt : number < later := (List.mem_range'_1.1 hlater).1
  rw [List.filter_filter]
  congr 1
  refine List.filter_congr fun entry _ ↦ ?_
  rw [← Bool.decide_and, decide_eq_decide]
  exact ⟨fun hle ↦ ⟨hle, Nat.lt_of_lt_of_le hlt hle⟩, And.left⟩

/-- Rounds follow one another until all have ended. -/
theorem LinedUp.allRounds (hrest : ∀ entry ∈ entries, number ≤ entry.2.ways.length)
    (lined : LinedUp executor (entries.map (place number))) (more : Nat)
    (hmore : ∀ entry ∈ entries, entry.2.ways.length < number + more) :
    ∃ next, Turns executor (entries.map fun entry ↦ entry.2.runs - number).sum
        ((List.range' number more).flatMap fun number ↦
          (entries.filter (number ≤ ·.2.ways.length)).flatMap (·.2.turn number)) next ∧
      LinedUp next [] := by
  induction more generalizing executor number entries with
  | zero =>
    have hnil : entries = [] := List.eq_nil_iff_forall_not_mem.2 fun entry hmem ↦
      Nat.not_lt.2 (hrest entry hmem) (hmore entry hmem)
    subst hnil
    exact ⟨executor, turns_refl executor, lined⟩
  | succ more ih =>
    rw [← List.append_nil (entries.map (place number))] at lined
    obtain ⟨next, hturns, hnext⟩ := lined.turns hrest
    have hleft (entry : TaskId × Yielder)
        (hmem : entry ∈ entries.filter (number < ·.2.ways.length)) :
        number + 1 ≤ entry.2.ways.length := of_decide_eq_true (List.mem_filter.1 hmem).2
    obtain ⟨last, hrounds, hlast⟩ := ih hleft hnext fun entry hmem ↦ by
      rw [Nat.add_right_comm]
      exact hmore entry (List.mem_filter.1 hmem).1
    refine ⟨last, ?_, hlast⟩
    rw [flatMap_range' hrest, ← sum_runs hrest]
    exact hturns.trans hrounds

/-! ## From the first round to the last -/

/-- The tasks are lined up once they have been spawned, the last one in front. -/
theorem LinedUp.spawnAll (lined : LinedUp executor (entries.map (place 0)))
    (yielders : List Yielder) :
    ∃ placed : List (TaskId × Yielder),
      LinedUp (executor.applyAll (yielders.map Yielder.operation)).1 (placed.map (place 0)) ∧
        placed.map Prod.snd = yielders.reverse ++ entries.map Prod.snd := by
  induction yielders generalizing executor entries with
  | nil => exact ⟨entries, lined, rfl⟩
  | cons yielder yielders ih =>
    have hclear : LinedUp { executor with events := #[] } (entries.map (place 0)) :=
      ⟨lined.line_eq, lined.nodup, lined.ready⟩
    have hspawned : LinedUp
        (({ executor with events := #[] } : Executor).apply yielder.operation).1
        (((executor.queue.next, yielder) :: entries).map (place 0)) :=
      hclear.spawn yielder.name (yielder.ways.map .yield)
    obtain ⟨placed, hplaced, hnames⟩ := ih hspawned
    refine ⟨placed, hplaced, ?_⟩
    rw [hnames, List.reverse_cons, List.append_assoc, List.map_cons, List.singleton_append]

theorem reports_spawnAll (executor : Executor) (yielders : List Yielder) :
    (executor.applyAll (yielders.map Yielder.operation)).2 =
      yielders.map fun _ ↦ ⟨.done, []⟩ := by
  induction yielders generalizing executor with
  | nil => rfl
  | cons yielder yielders ih =>
    exact congrArg (⟨.done, []⟩ :: ·) (ih _)

/-- Draining does no more than it takes to empty the line. -/
theorem Turns.drain_eq (turns : Turns executor count fresh last) (hlast : last.queue.line = [])
    (hwork : count ≤ executor.work) : executor.drain = (last, count) := by
  have hidle : last.queue.fetch? = none := by rw [RunQueue.fetch?, hlast]
  have hstops (limit : Nat) : runUpTo limit last = (last, 0) := by
    cases limit with
    | zero => rfl
    | succ limit => simp only [runUpTo, hidle]
  rw [drain, ← Nat.sub_add_cancel hwork, turns.runUpTo_eq, hstops, Nat.zero_add]

theorem cost_jobs_place (entry : TaskId × Yielder) :
    cost (place 0 entry).2.jobs = entry.2.runs := by
  have hjobs (ways : List SelfWake) : stepsJobs (ways.map .yield) = [] := by
    induction ways with
    | nil => rfl
    | cons way ways ih => exact ih
  have hpends : (entry.2.ways.map Step.yield).countP Step.pends = entry.2.ways.length := by
    rw [List.countP_map]
    exact List.countP_eq_length.2 fun _ _ ↦ rfl
  simp only [place, Yielder.after, Task.jobs, List.drop_zero, hjobs, cost_cons, Job.runs, hpends]
  rfl

theorem cost_place (entries : List (TaskId × Yielder)) :
    cost ((entries.map (place 0)).flatMap (·.2.jobs)) = (entries.map (·.2.runs)).sum := by
  induction entries with
  | nil => rfl
  | cons entry entries ih =>
    rw [List.map_cons, List.flatMap_cons, cost_append, ih, cost_jobs_place, List.map_cons,
      List.sum_cons]

theorem runs_le_of_mem {yielder : Yielder} {yielders : List Yielder} (hmem : yielder ∈ yielders) :
    yielder.runs ≤ (yielders.map Yielder.runs).foldr max 0 := by
  induction yielders with
  | nil => cases hmem
  | cons first rest ih =>
    rw [List.map_cons, List.foldr_cons]
    obtain rfl | hrest := List.mem_cons.1 hmem
    · exact Nat.le_max_left _ _
    · exact Nat.le_trans (ih hrest) (Nat.le_max_right _ _)

/-- Tasks that are lined up are served in rounds. -/
theorem LinedUp.drained {yielders : List Yielder} (lined : LinedUp executor (entries.map (place 0)))
    (hnames : entries.map Prod.snd = yielders.reverse) :
    executor.drain.2 = (yielders.map Yielder.runs).sum ∧
      executor.drain.1.events.toList = executor.events.toList ++ rounds yielders ∧
      executor.drain.1.queue.line = [] := by
  have hlongest (entry : TaskId × Yielder) (hmem : entry ∈ entries) :
      entry.2.ways.length < 0 + (yielders.map Yielder.runs).foldr max 0 := by
    have hyielder : entry.2 ∈ yielders :=
      List.mem_reverse.1 (hnames ▸ List.mem_map_of_mem hmem)
    exact Nat.lt_of_lt_of_eq (runs_le_of_mem hyielder) (Nat.zero_add _).symm
  obtain ⟨last, turns, hlast⟩ := lined.allRounds (fun _ _ ↦ Nat.zero_le _) _ hlongest
  have hsum : (entries.map fun entry ↦ entry.2.runs - 0).sum = (yielders.map Yielder.runs).sum := by
    have hruns : entries.map (fun entry ↦ entry.2.runs) =
        (entries.map Prod.snd).map Yielder.runs := by rw [List.map_map]; rfl
    simp only [Nat.sub_zero]
    rw [hruns, hnames, List.map_reverse, List.sum_reverse]
  have hwork := Nat.le_trans (cost_le_aboard lined.nodup fun entry hmem ↦ (lined.ready hmem).2.1)
    (cost_aboard_le_work executor)
  rw [cost_place] at hwork
  rw [turns.drain_eq hlast.line_eq hwork]
  refine ⟨hsum, ?_, hlast.line_eq⟩
  rw [turns.events_eq, rounds, List.range_eq_range']
  congr 2
  funext number
  rw [round, ← hnames, List.filter_map, List.flatMap_map]
  rfl

/-- Tasks that are spawned while the line is empty, and do nothing but give way, are served in
rounds. -/
theorem roundsKept (hidle : executor.queue.line = []) (yielders : List Yielder) :
    (executor.applyAll (yielders.map Yielder.operation ++ [.run])).2 =
        yielders.map (fun _ ↦ ⟨.done, []⟩) ++
          [⟨.ran (yielders.map Yielder.runs).sum, rounds yielders⟩] ∧
      (executor.applyAll (yielders.map Yielder.operation ++ [.run])).1.queue.line = [] := by
  have lined : LinedUp executor ([].map (place 0)) := ⟨hidle, List.nodup_nil, nofun⟩
  obtain ⟨placed, hplaced, hnames⟩ := lined.spawnAll yielders
  rw [applyAll_append, reports_spawnAll]
  generalize (executor.applyAll (yielders.map Yielder.operation)).1 = spawned at hplaced ⊢
  have hclear : LinedUp { spawned with events := #[] } (placed.map (place 0)) :=
    ⟨hplaced.line_eq, hplaced.nodup, hplaced.ready⟩
  rw [List.map_nil, List.append_nil] at hnames
  obtain ⟨hcount, hevents, hline⟩ := hclear.drained hnames
  refine ⟨congrArg (_ ++ [·]) ?_, hline⟩
  rw [← hcount]
  exact congrArg (Report.mk _) hevents

/-- An executor on which one task is parked and another is held. -/
def bystanders : Executor :=
  (empty.applyAll [.spawn "parked" [.park], .prepare "held" [], .run]).1

def choir : List Yielder := [⟨"low", [.twice]⟩, ⟨"middle", []⟩, ⟨"high", [.byReference, .byValue]⟩]

theorem roundsKept_choir :
    bystanders.queue.line = [] ∧
      (bystanders.applyAll (choir.map Yielder.operation ++ [.run])).2 =
        [⟨.done, []⟩, ⟨.done, []⟩, ⟨.done, []⟩,
          ⟨.ran 6, [.logged .taskFetched, .reached "high" 0, .logged .taskFetched, .ended "middle",
            .logged .taskFetched, .reached "low" 0, .logged .taskFetched, .reached "high" 1,
            .logged .taskFetched, .ended "low", .logged .taskFetched, .ended "high"]⟩] := by
  have hidle : bystanders.queue.line = [] := by decide +kernel
  exact ⟨hidle, (roundsKept hidle choir).1⟩

end Lifecycle.Executor
