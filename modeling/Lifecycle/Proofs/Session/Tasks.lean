import Lifecycle.Proofs.Session.Calls

/-!
# Tasks of a tended session

Whatever a task performs, the session is tended when it comes to an end or has to wait. If it has to
wait, its wake-up has come or will come. A main task that comes to its end leaves its process ended.
-/

namespace Lifecycle.Session

open Kernel (Parked Run Secluded)

variable {setup : Setup} {owners : RequestId → Option TaskId} {active : Option Actor}
  {actor : Actor} {pending : List (Effect Waker)} {core : Core} {session : Session} {id : TaskId}
  {task : Task} {request : RequestId} {takeSteps : StepTaker} {bindings : Bindings}
  {continuation : Continuation}

/-- A task is being run. -/
def Acting (setup : Setup) (actor : Actor) (core : Core) : Prop :=
  ∃ owners, Settled setup owners (some actor) core

/-- No task is being run. -/
def Resting (setup : Setup) (core : Core) : Prop := ∃ owners, Settled setup owners none core

/-- The task that is being run may wait: it was woken meanwhile, or it waits for a child. -/
structure Suspends (setup : Setup) (actor : Actor) (delay : Delay)
    (owners : RequestId → Option TaskId) (core : Core) : Prop where
  settled : Settled setup owners (some actor) core
  holds {request : RequestId} (hdelay : delay.request? = some request) :
    Holds owners core.kernel actor.task actor.process.pid request
  wakes : core.queue.standing actor.task = .running true ∨
    ∃ request, delay.request? = some request ∧
      Awaits core.kernel actor.task actor.process.pid request

/-- What holds after an instruction, by what the task does next. -/
def NextFits (setup : Setup) (actor : Actor) : Next → Core → Prop
  | .continue _, core | .leave _, core => Acting setup actor core
  | .wait delay, core => ∃ owners, Suspends setup actor delay owners core
  | .fault _, _ => False

/-- What holds after a run of a task, by what is left of it. -/
def EndFits (setup : Setup) (actor : Actor) : RunEnd → Core → Prop
  | .ended, core =>
    Acting setup actor core ∧ (actor.isMain = true →
      core.kernel.table.phaseOf? actor.process.pid ≠ some .running)
  | .suspended delay _ code, core =>
    Program.parks code = false ∧ ∃ owners, Suspends setup actor delay owners core
  | .faulted _, _ => False

/-! ## Requests of a task -/

/-- A task comes to own a request that nobody has. -/
theorem Tended.own (tended : Tended setup owners active pending core)
    (hfree : owners request = none) (hopened : request < core.kernel.nextRequest)
    (hhandles : ∀ named ∈ core.handles, named.2.request ≠ request) (id : TaskId) :
    Tended setup (Function.update owners request (some id)) active pending core :=
  have hkept {other : RequestId} {owner : TaskId} (howner : owners other = some owner) :
      Function.update owners request (some id) other = some owner := by
    rw [Function.update_of_ne, howner]
    rintro rfl
    rw [hfree] at howner
    cases howner
  { tended with
    opened := by
      intro other owner howner
      by_cases heq : other = request
      · exact heq ▸ hopened
      · rw [Function.update_of_ne heq] at howner
        exact tended.opened howner
    claimed := fun hclaim hwaker ↦ hkept (tended.claimed hclaim hwaker)
    handled := by
      intro named hmem
      rw [Function.update_of_ne (hhandles named hmem)]
      exact tended.handled hmem
    waiting := fun htask hidle ↦
      ⟨fun hdelay ↦ ((tended.waiting htask hidle).holds hdelay).imp_left hkept,
        (tended.waiting htask hidle).stands⟩ }

theorem Acting.leads_openRequest (acting : Acting setup actor session.core)
    (syscall : Kernel.Syscall) :
    Leads (openRequest (.openSyscall syscall)) session fun request after ↦
      ∃ owners, Settled setup owners (some actor) after ∧ owners request = some actor.task ∧
        after.kernel.requests[request]? = some (.syscall syscall) := by
  obtain ⟨owners, settled⟩ := acting
  refine (settled.leads_openRequest (.inr ⟨syscall, rfl⟩)).mono ?_
  rintro _ after ⟨rfl, hfree, hnext, hkernel, hhandles, tended, hidle⟩
  refine ⟨_, ⟨tended.own hfree (hnext ▸ Nat.lt_succ_self _) ?_ actor.task, hidle⟩,
    Function.update_self .., ?_⟩
  · rw [hhandles]
    exact fun named hmem ↦ Nat.ne_of_lt (settled.1.handled hmem).2
  · rw [hkernel]
    exact (Kernel.requests_keep _ _).trans (if_pos rfl)

theorem Holds.permitted {kernel : Kernel Waker}
    (holds : Holds owners kernel actor.task actor.process.pid request) (hidle : kernel.loads = [])
    (memory : Memory) :
    Permitted setup owners (some actor) kernel (.poll request (.task actor.task) memory) := by
  refine ⟨.inl hidle, ?_, ?_, nofun⟩
  · rintro other ⟨⟩
    exact .inr ⟨actor, rfl, holds.1⟩
  · rintro other id _ ⟨⟩
    exact holds.1

/-- A task's poll returns, or the task waits for a child. -/
theorem Finished.returned_or_awaits {kernel : Kernel Waker} {reply : Kernel.Reply Waker}
    {answer : Kernel.Answer} (hfinished : Finished reply answer core)
    (served : kernel.Served request actor.process.pid (.task actor.task) reply)
    (hsafe : ¬ reply.Faulted) (hidle : kernel.loads = []) :
    (∃ value written, answer = .returned value written) ∨
    answer = .pending ∧ Awaits core.kernel actor.task actor.process.pid request ∧
      core.kernel.callerOf? request = some actor.process.pid := by
  cases served with
  | faulted hfaulted => exact absurd hfaulted hsafe
  | @returned value written hanswer hloads =>
    cases hfinished with
    | plain _ hsame _ => exact .inl ⟨value, written, hsame.trans hanswer⟩
    | loaded hone =>
      rw [hloads, hidle] at hone
      cases hone
  | @parked wait hwait hparked hcaller hserves hanswer hloads =>
    cases hfinished with
    | plain _ hsame hkernel =>
      rw [hkernel]
      exact .inr ⟨hsame.trans hanswer, ⟨wait, hwait, hparked, hcaller⟩, hserves⟩
    | loaded hone =>
      rw [hloads, hidle] at hone
      cases hone
  | @loading load hanswer hloads hsyscall =>
    cases hfinished with
    | plain hnone =>
      rw [hloads] at hnone
      cases hnone
    | loaded hone hsame =>
      rw [hloads, hidle, List.cons.injEq] at hone
      rw [← hone.1, Kernel.Load.answer, if_pos hsyscall] at hsame
      exact .inl ⟨_, _, hsame⟩

section Tame

variable (tame : setup.Tame) (quiet : Quiet takeSteps)

include tame quiet

theorem leads_pollSyscall (settled : Settled setup owners (some actor) session.core)
    (holds : Holds owners session.core.kernel actor.task actor.process.pid request) :
    Leads (pollSyscall takeSteps actor.task actor.process bindings request continuation) session
      (NextFits setup actor) := by
  refine (settled.leads_pollRequest tame quiet _ (holds.permitted settled.2)).bind ?_
  rintro answer middle ⟨⟨memory, hfinished⟩, -, hmiddle⟩
  obtain ⟨past, hrun, secluded⟩ := settled.1.reached
  have hserved := Kernel.served_poll hrun.sound holds.2 (.task actor.task) memory
  obtain ⟨value, written, rfl⟩ | ⟨rfl, hawaits, hcaller⟩ := hfinished.returned_or_awaits hserved
    (hrun.poll_safe secluded settled.2 request _ memory) settled.2
  · exact (idle_finishSyscall _ _ _ _).bind_leads fun _ last hlast ↦
      leads_pure ⟨owners, hlast ▸ hmiddle⟩
  · refine leads_pure ⟨owners, hmiddle, ?_, .inr ⟨request, rfl, hawaits⟩⟩
    rintro other ⟨⟩
    exact ⟨holds.1, hcaller⟩

theorem leads_makeSyscall (acting : Acting setup actor session.core) (kind : Nat)
    (words : List Int) :
    Leads (makeSyscall takeSteps actor.task actor.process bindings kind words continuation) session
      (NextFits setup actor) := by
  refine (acting.leads_openRequest _).bind fun request middle ⟨owners, settled, howner, hentry⟩ ↦ ?_
  refine leads_pollSyscall tame quiet settled ⟨howner, ?_⟩
  rw [Kernel.callerOf?, hentry, Option.bind_some]
  rfl

theorem leads_performInstruction {instruction : Instruction}
    (acting : Acting setup actor session.core) (hparks : instruction.parks = false) :
    Leads (performInstruction takeSteps actor.task actor.process bindings instruction) session
      (NextFits setup actor) := by
  cases instruction with
  | exec into path arguments argc =>
    refine (idle_putString _ _).bind_leads fun name first hfirst ↦ ?_
    refine (idle_putTable _ _).bind_leads fun table second hsecond ↦ ?_
    exact leads_makeSyscall tame quiet (hsecond.trans hfirst ▸ acting) _ _
  | join child =>
    refine (idle_evaluate _ _ _).bind_leads fun child first hfirst ↦ ?_
    refine (idle_reserve _ _).bind_leads fun address second hsecond ↦ ?_
    refine (idle_store _ _ _).bind_leads fun _ third hthird ↦ ?_
    exact leads_makeSyscall tame quiet ((hthird.trans (hsecond.trans hfirst)) ▸ acting) _ _
  | syscall number words into =>
    refine (idle_mapM words fun word _ ↦ idle_evaluate _ _ word).bind_leads fun _ first hfirst ↦ ?_
    exact leads_makeSyscall tame quiet (hfirst ▸ acting) _ _
  | exit code => exact leads_makeSyscall tame quiet acting _ _
  | halt => exact leads_makeSyscall tame quiet acting _ _
  | kill victim status =>
    refine (idle_evaluate _ _ _).bind_leads fun victim first hfirst ↦ ?_
    obtain ⟨owners, settled⟩ := acting
    rw [← hfirst] at settled
    refine (settled.leads_call rfl rfl (permitted_of_nameless settled.2 rfl rfl)).bind
      fun answer second hcalled ↦ ?_
    exact (idle_showPerformed _ _ _).bind_leads fun _ third hthird ↦
      leads_pure ⟨owners, hthird ▸ hcalled.2⟩
  | shutdown =>
    obtain ⟨owners, settled⟩ := acting
    refine (settled.leads_call rfl rfl (permitted_of_nameless settled.2 rfl rfl)).bind
      fun answer first hcalled ↦ ?_
    exact (idle_showPerformed _ _ _).bind_leads fun _ second hsecond ↦
      leads_pure ⟨owners, hsecond ▸ hcalled.2⟩
  | phase other =>
    refine (idle_evaluate _ _ _).bind_leads fun other first hfirst ↦ ?_
    refine (idle_phaseOf _).bind_leads fun phase second hsecond ↦ ?_
    refine (idle_showPerformed _ _ _).bind_leads fun _ third hthird ↦ leads_pure ?_
    exact (hthird.trans (hsecond.trans hfirst)) ▸ acting
  | arguments =>
    refine (idle_ownArguments _).bind_leads fun strings first hfirst ↦ ?_
    refine (idle_showPerformed _ _ _).bind_leads fun _ second hsecond ↦ leads_pure ?_
    exact (hsecond.trans hfirst) ▸ acting
  | note label =>
    exact (idle_showPerformed _ _ _).bind_leads fun _ first hfirst ↦ leads_pure (hfirst ▸ acting)
  | yield =>
    obtain ⟨owners, tended, hidle⟩ := acting
    obtain ⟨_, woken, -, -, -, hrunning⟩ := tended.running rfl
    have hwoken : (session.core.queue.wake actor.task).standing actor.task = .running true := by
      rw [RunQueue.standing_wake, if_pos rfl, hrunning, RunQueue.woken]
    refine leads_modify_bind (leads_pure ⟨owners, ⟨tended.wake _, hidle⟩, ?_, .inl hwoken⟩)
    rintro _ ⟨⟩
  | park => cases hparks
  | assign into value =>
    exact (idle_evaluate _ _ _).bind_leads fun _ first hfirst ↦ leads_pure (hfirst ▸ acting)
  | thread instructions =>
    obtain ⟨owners, tended, hidle⟩ := acting
    refine Leads.bind (leads_spawnTask _ (And.intro (tended.spawn ?_ rfl) hidle))
      fun _ after hafter ↦ leads_pure ⟨owners, hafter⟩
    exact hparks
  | leave code => exact leads_pure acting

/-! ## Runs of a task -/

theorem leads_leave (acting : Acting setup actor session.core) (code : Int) :
    Leads (leave takeSteps actor.task actor.process actor.isMain code) session
      (EndFits setup actor) := by
  refine leads_get_bind ?_
  split
  · let exiting :=
      Kernel.Syscall.ofWords actor.process.pid SyscallKind.exit.number [Word.ofInt code]
    refine (acting.leads_openRequest exiting).bind
      fun request first ⟨owners, settled, howner, hentry⟩ ↦ ?_
    have holds : Holds owners first.core.kernel actor.task actor.process.pid request := by
      refine ⟨howner, ?_⟩
      rw [Kernel.callerOf?, hentry, Option.bind_some]
      rfl
    refine (settled.leads_pollRequest tame quiet _ (holds.permitted settled.2)).bind ?_
    rintro answer last ⟨⟨memory, hfinished⟩, -, hlast⟩
    obtain ⟨past, hrun, secluded⟩ := settled.1.reached
    obtain ⟨hnone, hstopped⟩ := hrun.exit_left secluded settled.2 hentry
      (SyscallKind.ofNumber?_number .exit) (.task actor.task) memory
    cases hfinished with
    | loaded hone =>
      rw [hnone] at hone
      cases hone
    | plain _ hanswer hkernel =>
      split
      · next _ fault =>
        exact absurd ⟨fault, hanswer.symm⟩ (hrun.poll_safe secluded settled.2 request _ memory)
      · refine leads_pure ⟨⟨owners, hlast⟩, fun _ ↦ ?_⟩
        rw [hkernel]
        exact hstopped
  · next hstopped =>
    refine leads_pure ⟨acting, fun hmain hrunning ↦ hstopped ⟨hmain, ?_⟩⟩
    exact Table.isRunning_iff_phaseOf?.2 hrunning

theorem leads_performCode {code : Program} (acting : Acting setup actor session.core)
    (hparks : Program.parks code = false) :
    Leads (performCode takeSteps actor.task actor.process actor.isMain code bindings) session
      (EndFits setup actor) := by
  induction code generalizing session bindings with
  | nil => exact leads_leave tame quiet acting 0
  | cons instruction rest ih =>
    rw [Program.parks, Bool.or_eq_false_iff] at hparks
    refine (leads_performInstruction tame quiet acting hparks.1).bind fun next middle hnext ↦ ?_
    cases next with
    | «continue» bindings => exact ih hnext hparks.2
    | wait delay => exact leads_pure ⟨hparks.2, hnext⟩
    | leave code => exact leads_leave tame quiet hnext code
    | fault fault => exact hnext.elim

theorem leads_runTask (settled : Settled setup owners (some actor) session.core)
    (hprocess : task.process = actor.process) (hmain : task.isMain = actor.isMain)
    (hparks : Program.parks task.code = false)
    (hdelay : ∀ request, task.delay.bind (·.request?) = some request →
      Holds owners session.core.kernel actor.task actor.process.pid request) :
    Leads (runTask takeSteps actor.task task) session (EndFits setup actor) := by
  obtain ⟨process, isMain, bindings, delay, code⟩ := task
  subst hprocess hmain
  cases delay with
  | none => exact leads_performCode tame quiet ⟨owners, settled⟩ hparks
  | some delay =>
    cases delay with
    | turn instruction =>
      refine (idle_showPerformed _ _ _).bind_leads fun _ middle hmiddle ↦ ?_
      exact leads_performCode tame quiet ⟨owners, hmiddle ▸ settled⟩ hparks
    | answer request continuation =>
      refine (leads_pollSyscall tame quiet settled (hdelay request rfl)).bind
        fun next middle hnext ↦ ?_
      cases next with
      | «continue» bindings => exact leads_performCode tame quiet hnext hparks
      | wait delay => exact leads_pure ⟨hparks, hnext⟩
      | leave code => exact leads_leave tame quiet hnext code
      | fault fault => exact hnext.elim

end Tame

/-! ## Turns -/

/-- The task at the head of the queue is run. -/
theorem Tended.fetch (tended : Tended setup owners none [] core) {line : List TaskId}
    (hline : core.queue.line = id :: line) (htask : core.tasks[id]? = some task) :
    Tended setup owners (some ⟨id, task.process, task.isMain⟩) []
      { core with queue := { core.queue.place id (.running false) with line } } :=
  have hself : (core.queue.place id (.running false)).standing id = .running false :=
    RunQueue.standing_place_self ..
  { tended with
    trim := tended.trim.fetched hline
    peopled := by
      intro other hstanding
      by_cases heq : id = other
      · exact ⟨task, heq ▸ htask⟩
      · exact tended.peopled ((RunQueue.standing_place_of_ne heq) ▸ hstanding)
    waiting := by
      intro other old hold hidle
      have hne : id ≠ other := hidle _ rfl
      refine (tended.waiting hold nofun).requeue (RunQueue.standing_place_of_ne hne) ?_
      rw [hline]
      exact List.mem_of_ne_of_mem hne.symm
    running := by
      rintro actor ⟨⟩
      exact ⟨task, false, htask, rfl, rfl, hself⟩
    lost := nofun }

theorem Tended.finish (tended : Tended setup owners (some actor) [] core)
    (hstopped : actor.isMain = true →
      core.kernel.table.phaseOf? actor.process.pid ≠ some .running) :
    Tended setup owners none []
      { core with
        queue := core.queue.finish actor.task
        tasks := core.tasks.erase actor.task } := by
  obtain ⟨task, woken, htask, hprocess, hmain, hrunning⟩ := tended.running rfl
  have hfinish {other : TaskId} (hne : actor.task ≠ other) :
      (core.queue.finish actor.task).standing other = core.queue.standing other :=
    RunQueue.standing_place_of_ne hne
  have hleft {other : TaskId} {old : Task}
      (hold : (core.tasks.erase actor.task)[other]? = some old) :
      actor.task ≠ other ∧ core.tasks[other]? = some old := by
    rw [tasks_erase] at hold
    split at hold
    · cases hold
    · next hne => exact ⟨hne, hold⟩
  refine { tended with
    trim := ?trim
    peopled := ?peopled
    sturdy := ?sturdy
    waiting := ?waiting
    running := nofun
    attended := ?attended
    lost := nofun }
  case trim => exact tended.trim.finish (tended.trim.not_mem (by simp [hrunning]))
  case peopled =>
    intro other hstanding
    have hne : actor.task ≠ other := by
      rintro rfl
      exact hstanding (RunQueue.standing_place_self ..)
    rw [hfinish hne] at hstanding
    obtain ⟨old, hold⟩ := tended.peopled hstanding
    exact ⟨old, (tasks_erase ..).trans (by rw [if_neg hne, hold])⟩
  case sturdy => exact fun hold ↦ tended.sturdy (hleft hold).2
  case waiting =>
    intro other old hold _
    obtain ⟨hne, hold⟩ := hleft hold
    exact (tended.waiting hold (by rintro _ ⟨⟩; exact hne)).requeue (hfinish hne) id
  case attended =>
    intro pid hpid
    obtain ⟨other, old, hold, hisMain, rfl⟩ | hload := tended.attended hpid
    · left
      have hne : actor.task ≠ other := by
        rintro rfl
        rw [htask, Option.some_inj] at hold
        subst hold
        exact hstopped (hmain ▸ hisMain) (hprocess ▸ hpid)
      exact ⟨other, old, (tasks_erase ..).trans (by rw [if_neg hne, hold]), hisMain, rfl⟩
    · exact .inr hload

/-- A task that waits is suspended, or it is put in the queue again. -/
theorem Suspends.tended {delay : Delay} {code : Program}
    (suspends : Suspends setup actor delay owners core) (hparks : Program.parks code = false)
    (hprocess : task.process = actor.process) (hmain : task.isMain = actor.isMain) :
    Tended setup owners none []
      { core with
        queue := (core.queue.suspend actor.task).1
        tasks := core.tasks.insert actor.task { task with delay, bindings, code } } := by
  obtain ⟨⟨tended, hidle⟩, hholds, hwakes⟩ := suspends
  obtain ⟨former, woken, hformer, hitsProcess, hitsMain, hrunning⟩ := tended.running rfl
  refine { tended with
    trim := tended.trim.suspend hrunning
    peopled := ?peopled
    sturdy := ?sturdy
    waiting := ?waiting
    running := nofun
    attended := ?attended
    lost := nofun }
  case peopled =>
    intro other hstanding
    rw [tasks_insert]
    by_cases heq : actor.task = other
    · exact ⟨_, if_pos heq⟩
    · rw [if_neg heq]
      refine tended.peopled ?_
      change (core.queue.suspend actor.task).1.standing other ≠ .ended at hstanding
      rwa [RunQueue.standing_suspend hrunning, if_neg heq] at hstanding
  case sturdy =>
    intro other old hold
    rw [tasks_insert] at hold
    split at hold
    · cases hold
      exact hparks
    · exact tended.sturdy hold
  case waiting =>
    intro other old hold _
    rw [tasks_insert] at hold
    by_cases heq : actor.task = other
    · subst heq
      rw [if_pos rfl, Option.some_inj] at hold
      subst hold
      constructor
      case holds => exact fun hdelay ↦ hprocess ▸ hholds hdelay
      case stands =>
        change (core.queue.suspend actor.task).1.standing actor.task = .ready ∧
          actor.task ∈ (core.queue.suspend actor.task).1.line ∨
            (core.queue.suspend actor.task).1.standing actor.task = .suspended ∧ _
        rw [RunQueue.standing_suspend hrunning, RunQueue.line_suspend hrunning, if_pos rfl]
        cases woken with
        | true => exact .inl ⟨rfl, List.mem_append_right _ List.mem_cons_self⟩
        | false =>
          obtain hwoken | ⟨request, hdelay, hawaits⟩ := hwakes
          · rw [hrunning] at hwoken
            cases hwoken
          · exact .inr ⟨rfl, .inl ⟨request, hdelay, hprocess ▸ hawaits⟩⟩
    · rw [if_neg heq] at hold
      refine (tended.waiting hold (by rintro _ ⟨⟩; exact heq)).requeue ?_ fun hmem ↦ ?_
      · rw [RunQueue.standing_suspend hrunning, if_neg heq]
      · rw [RunQueue.line_suspend hrunning]
        split
        · exact List.mem_append_left _ hmem
        · exact hmem
  case attended =>
    intro pid hpid
    refine (tended.attended hpid).imp_left fun ⟨other, old, hold, hisMain, hsame⟩ ↦ ?_
    by_cases heq : actor.task = other
    · subst heq
      obtain rfl := Option.some_inj.1 (hformer.symm.trans hold)
      refine ⟨_, _, (tasks_insert ..).trans (if_pos rfl), ?_, ?_⟩
      · exact hmain.trans (hitsMain.symm.trans hisMain)
      · exact (congrArg Process.pid (hprocess.trans hitsProcess.symm)).trans hsame
    · exact ⟨other, old, (tasks_insert ..).trans (by rw [if_neg heq, hold]), hisMain, hsame⟩

/-! ## Runs of the queue -/

section Tame

variable (tame : setup.Tame) (quiet : Quiet takeSteps)

include tame quiet

/-- A turn of a task comes to no fault. -/
theorem leads_advance (settled : Settled setup owners (some actor) session.core)
    (htask : session.core.tasks[actor.task]? = some task) (hprocess : task.process = actor.process)
    (hmain : task.isMain = actor.isMain)
    (hdelay : ∀ request, task.delay.bind (·.request?) = some request →
      Holds owners session.core.kernel actor.task actor.process.pid request) :
    Leads (advance takeSteps actor.task) session fun fault after ↦
      fault = none ∧ Resting setup after := by
  refine leads_get_bind ?_
  have hsome : session.tasks[actor.task]? = some task := htask
  rw [hsome]
  refine (leads_runTask tame quiet settled hprocess hmain (settled.1.sturdy htask) hdelay).bind
    fun left middle hleft ↦ ?_
  cases left with
  | ended =>
    obtain ⟨⟨owners, tended, hidle⟩, hstopped⟩ := hleft
    exact leads_modify_bind (leads_pure ⟨rfl, owners, tended.finish hstopped, hidle⟩)
  | suspended delay bindings code =>
    obtain ⟨hparks, owners, suspends⟩ := hleft
    exact leads_modify_bind (leads_modify_bind (leads_pure
      ⟨rfl, owners, suspends.tended hparks hprocess hmain, suspends.settled.2⟩))
  | faulted fault => exact hleft.elim

/-- A run of the queue comes to no fault. If it stops before its limit the queue is empty. -/
theorem leads_runUpTo (limit count : Nat) (resting : Resting setup session.core) :
    Leads (runUpTo takeSteps limit count) session fun result after ↦
      ∃ total, result = .ok total ∧ Resting setup after ∧
        (total < count + limit → after.queue.line = []) := by
  induction limit generalizing session count with
  | zero => exact leads_pure ⟨count, rfl, resting, fun hlt ↦ absurd hlt (Nat.lt_irrefl _)⟩
  | succ limit ih =>
    refine leads_get_bind ?_
    obtain ⟨owners, tended, hidle⟩ := resting
    split
    · next hfetch =>
      refine leads_pure ⟨count, rfl, ⟨owners, tended, hidle⟩, fun _ ↦ ?_⟩
      exact RunQueue.line_of_fetch hfetch
    · next fetched queue hfetch =>
      obtain ⟨id, line, hline, rfl, rfl⟩ := tended.trim.fetch hfetch
      refine leads_modify_bind ((idle_log _).bind_leads fun _ middle hmiddle ↦ ?_)
      have hready := tended.trim.ready (hline ▸ List.mem_cons_self)
      have hstanding : session.core.queue.standing id ≠ .ended := by simp [hready]
      obtain ⟨task, htask⟩ := tended.peopled hstanding
      have settled : Settled setup owners (some ⟨id, task.process, task.isMain⟩) middle.core := by
        rw [hmiddle]
        exact ⟨tended.fetch hline htask, hidle⟩
      refine (leads_advance tame quiet settled ?_ rfl rfl ?_).bind ?_
      · rw [hmiddle]
        exact htask
      · rw [hmiddle]
        exact fun request hdelay ↦ (tended.waiting htask nofun).holds hdelay
      · rintro fault last ⟨rfl, hlast⟩
        refine (ih (count + 1) hlast).mono fun result after hresult ↦ ?_
        rwa [Nat.add_right_comm, Nat.add_assoc] at hresult

theorem leads_runTasks (resting : Resting setup session.core) :
    Leads (runTasks takeSteps) session fun result after ↦
      ∃ total, result = .ok total ∧ Resting setup after ∧
        (total < setup.runLimit → after.queue.line = []) := by
  refine leads_get_bind ((leads_runUpTo tame quiet _ 0 resting).mono fun result after hresult ↦ ?_)
  obtain ⟨owners, tended, -⟩ := resting
  have hlimit : session.runLimit = setup.runLimit := tended.runLimit_eq
  rwa [hlimit, Nat.zero_add] at hresult

end Tame

end Lifecycle.Session
