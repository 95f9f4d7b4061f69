import Lifecycle.Proofs.Kernel.Aftermath
import Lifecycle.Proofs.Kernel.Discards
import Lifecycle.Proofs.Kernel.Service
import Lifecycle.Proofs.Scheduling.RunQueue
import Lifecycle.Proofs.Session.Leads

/-!
# Sessions that tend their processes

In a tame session images take no part in what happens while they are loaded, every process that is
admitted has a program, and no program parks. Then a task that is suspended waits in a JOIN of its
own process, with its waker in the slot of a child, and a process that runs has a task of its own
that makes it exit. `Tended` is the invariant that says so. It is kept by kernel calls, by each of
their effects, and by the start and the end of a task's run.
-/

namespace Lifecycle.Session

open Kernel (Parked Run Secluded)

/-! ## Tame sessions -/

mutual

/-- Whether an instruction may leave its task waiting without anybody knowing. -/
def Instruction.parks : Instruction → Bool
  | .park => true
  | .thread instructions => Program.parks instructions
  | .exec .. | .join _ | .syscall .. | .exit _ | .halt | .kill .. | .shutdown | .phase _
  | .arguments | .note _ | .yield | .assign .. | .leave _ => false

def Program.parks : List Instruction → Bool
  | [] => false
  | instruction :: rest => instruction.parks || Program.parks rest

end

/-- Whether an operation makes no kernel call and runs no task. -/
def Operation.isPassive : Operation → Bool
  | .query _ | .table | .peek .. | .poke .. | .other => true
  | .spawn .. | .terminate .. | .shutdown | .join .. | .syscall .. | .poll .. | .drop _
  | .blockOn .. | .run | .churn .. => false

/-- An image that makes no kernel call while it is loaded, and whose processes have programs that do
not park. -/
structure Image.Tame (image : Image) : Prop where
  passive : ∀ operation ∈ image.during.getD [], operation.isPassive = true
  manned (hloads : image.layout.failure = none) :
    ∃ code, image.program = some code ∧ Program.parks code = false

def Setup.Tame (setup : Setup) : Prop := ∀ named ∈ setup.images, named.2.Tame

/-- The processes of an image have a program, and it does not park. -/
def Setup.Mans (setup : Setup) (path : String) : Prop :=
  ∃ image code, setup.images.lookup path = some image ∧ image.program = some code ∧
    Program.parks code = false

/-! ## What tasks wait for -/

/-- The request that a delay waits for. -/
def Delay.request? : Delay → Option RequestId
  | .turn _ => none
  | .answer request _ => some request

/-- A request is parked with the waker of a task, in a JOIN of a process for its child. -/
def Awaits (kernel : Kernel Waker) (id : TaskId) (pid : Pid) (request : RequestId) : Prop :=
  ∃ wait, kernel.waitOf? request = some wait ∧ Parked kernel.table wait (.task id) ∧
    wait.caller = pid

/-- A request is a syscall of a process, and belongs to a task. -/
def Holds (owners : RequestId → Option TaskId) (kernel : Kernel Waker) (id : TaskId) (pid : Pid)
    (request : RequestId) : Prop :=
  owners request = some id ∧ kernel.callerOf? request = some pid

/-- The task that is being run. -/
structure Actor where
  task : TaskId
  process : Process
  isMain : Bool

/-- A task that is not being run is in the queue, or it is suspended and waits for a child, or its
wake-up is under way. -/
structure Waiting (owners : RequestId → Option TaskId) (pending : List (Effect Waker)) (core : Core)
    (id : TaskId) (task : Task) : Prop where
  holds {request : RequestId} (hdelay : task.delay.bind (·.request?) = some request) :
    Holds owners core.kernel id task.process.pid request
  stands : core.queue.standing id = .ready ∧ id ∈ core.queue.line ∨
    core.queue.standing id = .suspended ∧
      ((∃ request, task.delay.bind (·.request?) = some request ∧
          Awaits core.kernel id task.process.pid request) ∨
        ∃ size, .wake (.task id) size ∈ pending)

/-- The invariant of a tame session, with the tasks that own requests, the task that is being run
and the effects that are still to be settled. -/
structure Tended (setup : Setup) (owners : RequestId → Option TaskId) (active : Option Actor)
    (pending : List (Effect Waker)) (core : Core) : Prop where
  images_eq : core.images = setup.images
  runLimit_eq : core.runLimit = setup.runLimit
  reached : ∃ past, Run past core.kernel ∧ Secluded past
  opened {request : RequestId} {id : TaskId} (howner : owners request = some id) :
    request < core.kernel.nextRequest
  /-- A task's waker is in a slot for a request of that task only. -/
  claimed {target : Pid} {claim : Claim Waker} {id : TaskId}
    (hclaim : core.kernel.table.claimOf? target = some claim)
    (hwaker : claim.waker = some (.task id)) : owners claim.token = some id
  handled {named : String × Handle} (hmem : named ∈ core.handles) :
    owners named.2.request = none ∧ named.2.request < core.kernel.nextRequest
  trim : core.queue.Trim
  peopled {id : TaskId} (hstanding : core.queue.standing id ≠ .ended) :
    ∃ task, core.tasks[id]? = some task
  sturdy {id : TaskId} {task : Task} (htask : core.tasks[id]? = some task) :
    Program.parks task.code = false
  waiting {id : TaskId} {task : Task} (htask : core.tasks[id]? = some task)
    (hidle : ∀ actor, active = some actor → actor.task ≠ id) :
    Waiting owners pending core id task
  running {actor : Actor} (hactive : active = some actor) :
    ∃ task woken, core.tasks[actor.task]? = some task ∧ task.process = actor.process ∧
      task.isMain = actor.isMain ∧ core.queue.standing actor.task = .running woken
  /-- A process that runs has a main task, or it is about to have one. -/
  attended {pid : Pid} (hrunning : core.kernel.table.phaseOf? pid = some .running) :
    (∃ (id : TaskId) (task : Task), core.tasks[id]? = some task ∧ task.isMain = true ∧
      task.process.pid = pid) ∨
    (∃ load ∈ core.kernel.loads, load.pid = pid) ∨
    ∃ path entry size, .admitted pid path entry size ∈ pending
  /-- No waker is lost but that of the task that is being run. -/
  lost {id : TaskId} (hmem : .discard (.task id) ∈ pending) :
    ∃ actor, active = some actor ∧ actor.task = id
  admitted {pid : Pid} {path : String} {entry : Entry} {size : Nat}
    (hmem : .admitted pid path entry size ∈ pending) : setup.Mans path

variable {setup : Setup} {owners : RequestId → Option TaskId} {active : Option Actor}
  {actor : Actor} {pending : List (Effect Waker)} {core : Core} {call : Kernel.Call Waker}
  {id : TaskId} {task : Task} {request : RequestId} {pid : Pid}

/-! ## Kernel calls -/

/-- The calls that a task, or somebody who is no task, may make in a tended session. -/
structure Permitted (setup : Setup) (owners : RequestId → Option TaskId) (active : Option Actor)
    (kernel : Kernel Waker) (call : Kernel.Call Waker) : Prop where
  secluded : kernel.loads = [] ∨ call.endsLoad = true
  touches {request : RequestId} (hcall : call.request? = some request) :
    owners request = none ∨ ∃ actor, active = some actor ∧ owners request = some actor.task
  leaves {request : RequestId} {id : TaskId} {memory : Memory}
    (hcall : call = .poll request (.task id) memory) : owners request = some id
  manned {entry : Entry} {load : Kernel.Load} {rest : List Kernel.Load}
    (hcall : call = .finishLoad (.ok entry)) (hloads : kernel.loads = load :: rest) :
    setup.Mans load.path

/-- A call does not name the request of a task that is not being run. -/
theorem Permitted.untouched {kernel : Kernel Waker}
    (permitted : Permitted setup owners active kernel call)
    (howner : owners request = some id) (hidle : ∀ actor, active = some actor → actor.task ≠ id) :
    call.request? ≠ some request := by
  intro hcall
  obtain hnone | ⟨actor, hactive, hsame⟩ := permitted.touches hcall
  · rw [howner] at hnone
    cases hnone
  · rw [howner, Option.some_inj] at hsame
    exact hidle actor hactive hsame.symm

theorem permitted_of_nameless {kernel : Kernel Waker} (hidle : kernel.loads = [])
    (hnone : call.request? = none) (hends : call.endsLoad = false) :
    Permitted setup owners active kernel call := by
  refine ⟨.inl hidle, ?_, ?_, ?_⟩
  · intro request hcall
    rw [hnone] at hcall
    cases hcall
  · rintro request id memory rfl
    cases hnone
  · rintro entry load rest rfl
    cases hends

section Perform

variable (tended : Tended setup owners active [] core)
  (permitted : Permitted setup owners active core.kernel call)

include tended permitted

theorem Tended.waiting_perform (htask : core.tasks[id]? = some task)
    (hidle : ∀ actor, active = some actor → actor.task ≠ id) :
    Waiting owners (core.kernel.perform call).effects
      { core with kernel := (core.kernel.perform call).kernel } id task := by
  obtain ⟨past, hrun, secluded⟩ := tended.reached
  have hnext := secluded.concat permitted.secluded
  obtain ⟨hholds, hstands⟩ := tended.waiting htask hidle
  constructor
  case holds =>
    intro request hdelay
    obtain ⟨howner, hcaller⟩ := hholds hdelay
    refine ⟨howner, ?_⟩
    have huntouched := permitted.untouched howner hidle
    rw [Kernel.callerOf?, Kernel.requests_untouched (tended.opened howner) huntouched]
    exact hcaller
  case stands =>
    refine hstands.imp_right (And.imp_right ?_)
    rintro (⟨request, hdelay, wait, hwait, hparked, hcaller⟩ | ⟨_, hmem⟩)
    · obtain ⟨howner, -⟩ := hholds hdelay
      have huntouched := permitted.untouched howner hidle
      have htoken := hrun.tidy.token_eq hwait
      refine (hrun.parked_left hnext hparked (htoken ▸ huntouched)).imp_left fun hstill ↦ ?_
      refine ⟨request, hdelay, wait, ?_, hstill, hcaller⟩
      rw [Kernel.waitOf?, Kernel.requests_untouched (tended.opened howner) huntouched]
      exact hwait
    · cases hmem

theorem Tended.attended_perform
    (hrunning : (core.kernel.perform call).kernel.table.phaseOf? pid = some .running) :
    (∃ (id : TaskId) (task : Task), core.tasks[id]? = some task ∧ task.isMain = true ∧
      task.process.pid = pid) ∨
    (∃ load ∈ (core.kernel.perform call).kernel.loads, load.pid = pid) ∨
    ∃ path entry size, .admitted pid path entry size ∈ (core.kernel.perform call).effects := by
  obtain ⟨past, hrun, secluded⟩ := tended.reached
  have hnext := secluded.concat permitted.secluded
  obtain hbefore | ⟨load, hloads, hpid⟩ := hrun.running_left hnext hrunning
  swap
  · exact .inr (.inl ⟨load, hloads ▸ List.mem_cons_self, hpid⟩)
  obtain hmain | ⟨load, hload, hpid⟩ | ⟨_, _, _, hmem⟩ := tended.attended hbefore
  · exact .inl hmain
  · right
    cases hends : call.endsLoad with
    | false =>
      obtain ⟨hsame, -⟩ | ⟨new, hpushed, -⟩ := Kernel.loads_perform core.kernel hends
      · exact .inl ⟨load, hsame ▸ hload, hpid⟩
      · exact .inl ⟨load, hpushed ▸ List.mem_cons_of_mem _ hload, hpid⟩
    | true =>
      cases call with
      | finishLoad outcome =>
        obtain hidle | ⟨only, hone, -⟩ := hrun.loads_of_secluded secluded
        · rw [hidle] at hload
          cases hload
        · rw [hone, List.mem_singleton] at hload
          subst hload hpid
          obtain ⟨-, -, ⟨entry, size, hadmitted⟩ | hgone⟩ :=
            hrun.finishLoad_left secluded hone outcome
          · exact .inr ⟨_, entry, size, hadmitted⟩
          · rw [hgone] at hrunning
            cases hrunning
      | spawn | terminate | shutdown | openJoin | openSyscall | poll | abandon => cases hends
  · cases hmem

theorem Tended.perform :
    Tended setup owners active (core.kernel.perform call).effects
      { core with kernel := (core.kernel.perform call).kernel } := by
  obtain ⟨past, hrun, secluded⟩ := tended.reached
  have hnext := secluded.concat permitted.secluded
  have hgrows := Kernel.nextRequest_le core.kernel call
  constructor
  case images_eq => exact tended.images_eq
  case runLimit_eq => exact tended.runLimit_eq
  case reached => exact hrun.exists_next hnext
  case opened => exact fun howner ↦ Nat.lt_of_lt_of_le (tended.opened howner) hgrows
  case claimed =>
    intro target claim id hclaim hwaker
    obtain hbefore | ⟨memory, hcall⟩ := hrun.claim_left hnext hclaim hwaker
    · exact tended.claimed hbefore hwaker
    · exact permitted.leaves hcall
  case handled =>
    exact fun hmem ↦ (tended.handled hmem).imp_right (Nat.lt_of_lt_of_le · hgrows)
  case trim => exact tended.trim
  case peopled => exact tended.peopled
  case sturdy => exact tended.sturdy
  case waiting => exact tended.waiting_perform permitted
  case running => exact tended.running
  case attended => exact tended.attended_perform permitted
  case lost =>
    intro id hmem
    obtain ⟨request, target, hcall, claim, hclaim, rfl, hwaker⟩ := hrun.claims_of_lost hnext hmem
    have howner := tended.claimed hclaim hwaker
    obtain hnone | ⟨actor, hactive, hsame⟩ := permitted.touches hcall
    · rw [howner] at hnone
      cases hnone
    · rw [howner, Option.some_inj] at hsame
      exact ⟨actor, hactive, hsame.symm⟩
  case admitted =>
    intro pid path entry size hmem
    obtain ⟨hcall, load, rest, hloads, -, rfl⟩ := hrun.admitted_left hnext hmem
    exact permitted.manned hcall hloads

end Perform

/-! ## Effects -/

theorem tasks_insert (tasks : Std.ExtTreeMap TaskId Task) (id other : TaskId) (task : Task) :
    (tasks.insert id task)[other]? = if id = other then some task else tasks[other]? := by
  simp [Std.ExtTreeMap.getElem?_insert]

theorem tasks_erase (tasks : Std.ExtTreeMap TaskId Task) (id other : TaskId) :
    (tasks.erase id)[other]? = if id = other then none else tasks[other]? := by
  simp [Std.ExtTreeMap.getElem?_erase]

theorem Tended.standing_ne (tended : Tended setup owners active pending core)
    (htask : core.tasks[id]? = some task) : core.queue.standing id ≠ .ended := by
  intro hended
  by_cases hactive : ∃ actor, active = some actor ∧ actor.task = id
  · obtain ⟨actor, hactive, rfl⟩ := hactive
    obtain ⟨_, _, -, -, -, hrunning⟩ := tended.running hactive
    rw [hended] at hrunning
    cases hrunning
  · obtain ⟨hready, -⟩ | ⟨hsuspended, -⟩ :=
      (tended.waiting htask fun actor hsome heq ↦ hactive ⟨actor, hsome, heq⟩).stands
    · rw [hended] at hready
      cases hready
    · rw [hended] at hsuspended
      cases hsuspended

/-- A task keeps waiting when the queue is changed for others only. -/
theorem Waiting.requeue {queue : RunQueue} {tasks : Std.ExtTreeMap TaskId Task}
    (waiting : Waiting owners pending core id task)
    (hstanding : queue.standing id = core.queue.standing id)
    (hline : id ∈ core.queue.line → id ∈ queue.line) :
    Waiting owners pending { core with queue, tasks } id task where
  holds := waiting.holds
  stands := by
    change queue.standing id = .ready ∧ id ∈ queue.line ∨ queue.standing id = .suspended ∧ _
    rw [hstanding]
    exact waiting.stands.imp_left (And.imp_right hline)

theorem Waiting.wake (waiting : Waiting owners pending core id task) (other : TaskId) :
    Waiting owners pending { core with queue := core.queue.wake other } id task := by
  by_cases heq : other = id
  · subst heq
    refine ⟨waiting.holds, .inl ?_⟩
    change (core.queue.wake other).standing other = .ready ∧ other ∈ (core.queue.wake other).line
    rw [RunQueue.standing_wake, RunQueue.line_wake, if_pos rfl]
    obtain ⟨hready, hmem⟩ | ⟨hsuspended, -⟩ := waiting.stands
    · rw [hready, if_neg (by simp)]
      exact ⟨rfl, hmem⟩
    · rw [hsuspended, if_pos rfl]
      exact ⟨rfl, List.mem_cons_self⟩
  · refine waiting.requeue ?_ fun hmem ↦ ?_
    · rw [RunQueue.standing_wake, if_neg heq]
    · rw [RunQueue.line_wake]
      split
      · exact List.mem_cons_of_mem _ hmem
      · exact hmem

section Settle

variable (tended : Tended setup owners active pending core)

include tended

/-- Whoever uses a task's waker does no harm. -/
theorem Tended.wake (other : TaskId) :
    Tended setup owners active pending { core with queue := core.queue.wake other } :=
  { tended with
    trim := tended.trim.wake other
    peopled := fun hstanding ↦ tended.peopled (RunQueue.standing_of_wake hstanding)
    waiting := fun htask hidle ↦ (tended.waiting htask hidle).wake other
    running := by
      intro actor hactive
      obtain ⟨task, woken, htask, hprocess, hmain, hrunning⟩ := tended.running hactive
      refine ⟨task, ?_⟩
      change ∃ woken, _ ∧ _ ∧ _ ∧ (core.queue.wake other).standing actor.task = .running woken
      rw [RunQueue.standing_wake]
      split
      · next heq => exact ⟨true, htask, hprocess, hmain, by rw [heq, hrunning, RunQueue.woken]⟩
      · exact ⟨woken, htask, hprocess, hmain, hrunning⟩ }

/-- A new task that begins its program is in the queue. -/
theorem Tended.spawn (hcode : Program.parks task.code = false) (hdelay : task.delay = none) :
    Tended setup owners active pending
      { core with
        queue := core.queue.spawn.2
        tasks := core.tasks.insert core.queue.next task } :=
  have hother {id : TaskId} {old : Task} (hold : core.tasks[id]? = some old) :
      core.queue.next ≠ id := by
    rintro rfl
    exact tended.standing_ne hold tended.trim.standing_next
  { tended with
    trim := tended.trim.spawn
    peopled := by
      intro id hstanding
      change core.queue.spawn.2.standing id ≠ .ended at hstanding
      rw [RunQueue.standing_spawn] at hstanding
      rw [tasks_insert]
      split at hstanding
      · next heq => exact ⟨task, if_pos heq⟩
      · next hne =>
        rw [if_neg hne]
        exact tended.peopled hstanding
    sturdy := by
      intro id other htask
      rw [tasks_insert] at htask
      split at htask
      · cases htask
        exact hcode
      · exact tended.sturdy htask
    waiting := by
      intro id other htask hidle
      rw [tasks_insert] at htask
      split at htask
      · next heq =>
        cases htask
        constructor
        case holds =>
          intro request hrequest
          rw [hdelay] at hrequest
          cases hrequest
        case stands =>
          left
          change core.queue.spawn.2.standing id = .ready ∧ id ∈ core.queue.spawn.2.line
          rw [RunQueue.standing_spawn, RunQueue.line_spawn, if_pos heq, heq]
          exact ⟨rfl, List.mem_cons_self⟩
      · next hne =>
        refine (tended.waiting htask hidle).requeue ?_ fun hmem ↦ ?_
        · rw [RunQueue.standing_spawn, if_neg hne]
        · rw [RunQueue.line_spawn]
          exact List.mem_cons_of_mem _ hmem
    running := by
      intro actor hactive
      obtain ⟨old, woken, hold, hprocess, hmain, hrunning⟩ := tended.running hactive
      refine ⟨old, woken, (tasks_insert ..).trans ?_, hprocess, hmain, ?_⟩
      · rw [if_neg (hother hold), hold]
      · exact (RunQueue.standing_spawn ..).trans (by rw [if_neg (hother hold), hrunning])
    attended := by
      intro pid hrunning
      refine (tended.attended hrunning).imp_left fun ⟨id, old, hold, hmain, hpid⟩ ↦ ?_
      exact ⟨id, old, (tasks_insert ..).trans (by rw [if_neg (hother hold), hold]), hmain, hpid⟩ }

/-- An effect has come about if the task that it wakes is not suspended, and the process that it
admits has a main task. -/
theorem Tended.drop {effect : Effect Waker} {rest : List (Effect Waker)}
    (hpending : pending = effect :: rest)
    (hwake : ∀ id size, effect = .wake (.task id) size → core.queue.standing id ≠ .suspended)
    (hadmitted : ∀ pid path entry size, effect = .admitted pid path entry size →
      ∃ (id : TaskId) (task : Task), core.tasks[id]? = some task ∧ task.isMain = true ∧
        task.process.pid = pid) :
    Tended setup owners active rest core :=
  { tended with
    waiting := by
      intro id task htask hidle
      obtain ⟨hholds, hready | ⟨hsuspended, hreason⟩⟩ := tended.waiting htask hidle
      · exact ⟨hholds, .inl hready⟩
      · refine ⟨hholds, .inr ⟨hsuspended, hreason.imp_right fun ⟨size, hmem⟩ ↦ ⟨size, ?_⟩⟩⟩
        rw [hpending, List.mem_cons] at hmem
        exact hmem.resolve_left fun heq ↦ hwake id size heq.symm hsuspended
    attended := by
      intro pid hrunning
      obtain hmain | hload | ⟨path, entry, size, hmem⟩ := tended.attended hrunning
      · exact .inl hmain
      · exact .inr (.inl hload)
      · rw [hpending, List.mem_cons] at hmem
        obtain heq | hrest := hmem
        · exact .inl (hadmitted pid path entry size heq.symm)
        · exact .inr (.inr ⟨path, entry, size, hrest⟩)
    lost := fun hmem ↦ tended.lost (hpending ▸ List.mem_cons_of_mem _ hmem)
    admitted := fun hmem ↦ tended.admitted (hpending ▸ List.mem_cons_of_mem _ hmem) }

end Settle

end Lifecycle.Session
