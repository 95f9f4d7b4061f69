import Lifecycle.Proofs.Session.Tending

/-!
# Kernel calls of a tended session

A session that is tended stays so when it makes a permitted call and settles the effects in order.
Loading an image changes nothing that matters, so a request that needs an image is answered with the
load at an end.
-/

namespace Lifecycle.Session

open Kernel (Parked Run Secluded)

variable {setup : Setup} {owners : RequestId → Option TaskId} {active : Option Actor}
  {actor : Actor} {pending : List (Effect Waker)} {call : Kernel.Call Waker}
  {session : Session} {id : TaskId} {request : RequestId} {pid : Pid}

/-! ## Effects -/

/-- What a session that settles effects leaves as it is. -/
def Spared (before after : Core) : Prop :=
  after.kernel = before.kernel ∧ after.handles = before.handles

theorem leads_spawnTask (task : Task) {post : PUnit → Core → Prop}
    (hpost : post ⟨⟩ { session.core with
      queue := session.core.queue.spawn.2
      tasks := session.core.tasks.insert session.core.queue.next task }) :
    Leads (spawnTask task) session post := by
  have hid : session.core.queue.spawn.1 = session.core.queue.next := RunQueue.id_spawn _
  rw [← hid] at hpost
  exact hpost

theorem Tended.leads_admitted {path : String} {entry : Entry} {size : Nat}
    (tended : Tended setup owners active (.admitted pid path entry size :: pending) session.core) :
    Leads (settle (.admitted pid path entry size)) session fun _ after ↦
      Spared session.core after ∧ Tended setup owners active pending after := by
  obtain ⟨image, code, himage, hprogram, hcode⟩ := tended.admitted List.mem_cons_self
  have hspawn (space : SpaceId) (last : Session) (hlast : last.core = session.core) :
      Leads (spawnTask ⟨⟨pid, space, entry.argc, entry.argv⟩, true, [], none, code⟩) last
        fun _ after ↦ Spared session.core after ∧ Tended setup owners active pending after := by
    refine leads_spawnTask _ ?_
    rw [hlast]
    refine ⟨⟨rfl, rfl⟩, Tended.drop (tended.spawn ?_ rfl) rfl nofun ?_⟩
    · exact hcode
    rintro _ _ _ _ ⟨⟩
    exact ⟨session.core.queue.next, _, (tasks_insert ..).trans (if_pos rfl), rfl, rfl⟩
  refine (idle_emit _).bind_leads fun _ middle hmiddle ↦ leads_get_bind ?_
  have hlookup : middle.core.images.lookup path = some image := by
    rw [hmiddle, tended.images_eq, himage]
  have hlookup : middle.images.lookup path = some image := hlookup
  simp only [hlookup, Option.bind_some, hprogram, Option.isNone_some, Bool.false_eq_true,
    and_false, if_false]
  refine (idle_addSpace _).bind_leads fun space second hsecond ↦ ?_
  have hsecond : second.core = session.core := hsecond.trans hmiddle
  split
  · exact hspawn space second hsecond
  · exact (idle_nameSpace _ _).bind_leads fun _ third hthird ↦
      hspawn space third (hthird.trans hsecond)

theorem Tended.leads_settle {effect : Effect Waker}
    (tended : Tended setup owners active (effect :: pending) session.core) :
    Leads (settle effect) session fun _ after ↦
      Spared session.core after ∧ Tended setup owners active pending after := by
  have hidle {action : SessionM PUnit} (idle : Idle action)
      (hwake : ∀ id size, effect ≠ .wake (.task id) size)
      (hadmitted : ∀ pid path entry size, effect ≠ .admitted pid path entry size) :
      Leads action session fun _ after ↦
        Spared session.core after ∧ Tended setup owners active pending after := by
    refine idle.leads fun _ ↦ ⟨⟨rfl, rfl⟩, tended.drop rfl ?_ ?_⟩
    · exact fun id size heq ↦ absurd heq (hwake id size)
    · exact fun pid path entry size heq ↦ absurd heq (hadmitted pid path entry size)
  cases effect with
  | note notice => exact hidle (idle_log notice) nofun nofun
  | halt size => exact hidle (idle_emit _) nofun nofun
  | stop size => exact hidle (idle_emit _) nofun nofun
  | admitted pid path entry size => exact tended.leads_admitted
  | wake waker size =>
    cases waker with
    | named name => exact hidle (idle_emit _) nofun nofun
    | blocked => exact hidle (idle_log _) nofun nofun
    | task id =>
      refine ⟨⟨rfl, rfl⟩, (tended.wake id).drop rfl ?_ nofun⟩
      intro other size heq
      cases heq
      exact RunQueue.standing_wake_self _ _
  | discard waker =>
    cases waker with
    | named name => exact hidle (idle_pure _) nofun nofun
    | blocked => exact hidle (idle_pure _) nofun nofun
    | task id =>
      obtain ⟨actor, hactive, rfl⟩ := tended.lost List.mem_cons_self
      obtain ⟨_, woken, -, -, -, hrunning⟩ := tended.running hactive
      have hsame : session.core.queue.forsake actor.task = session.core.queue :=
        RunQueue.forsake_of_ne (by simp [hrunning])
      change Spared _ { session.core with queue := session.core.queue.forsake actor.task } ∧
        Tended setup owners active pending
          { session.core with queue := session.core.queue.forsake actor.task }
      rw [hsame]
      exact ⟨⟨rfl, rfl⟩, tended.drop rfl nofun nofun⟩

theorem Tended.leads_settleAll {effects : List (Effect Waker)}
    (tended : Tended setup owners active effects session.core) :
    Leads (effects.forM settle) session fun _ after ↦
      Spared session.core after ∧ Tended setup owners active [] after := by
  induction effects generalizing session with
  | nil => exact leads_pure ⟨⟨rfl, rfl⟩, tended⟩
  | cons effect rest ih =>
    refine tended.leads_settle.bind fun _ middle ⟨⟨hkernel, hhandles⟩, hmiddle⟩ ↦ ?_
    refine (ih hmiddle).mono fun _ after ⟨hspared, hafter⟩ ↦ ⟨?_, hafter⟩
    exact ⟨hspared.1.trans hkernel, hspared.2.trans hhandles⟩

/-! ## Calls -/

/-- What a call with a reply comes to in a session. -/
structure Called (before : Core) (reply : Kernel.Reply Waker) (answer : Kernel.Answer)
    (after : Core) : Prop where
  answer_eq : answer = reply.answer
  kernel_eq : after.kernel = reply.kernel
  handles_eq : after.handles = before.handles

theorem Tended.leads_call (tended : Tended setup owners active [] session.core)
    (permitted : Permitted setup owners active session.core.kernel call) :
    Leads (Session.call call) session fun answer after ↦
      Called session.core (session.core.kernel.perform call) answer after ∧
        Tended setup owners active [] after := by
  refine leads_get_bind (leads_modify_bind ?_)
  refine Leads.bind (tended.perform permitted).leads_settleAll fun _ after ⟨hspared, hafter⟩ ↦ ?_
  exact leads_pure ⟨⟨rfl, hspared.1, hspared.2⟩, hafter⟩

/-! ## Loads -/

/-- To take passive steps changes nothing that matters. -/
def Quiet (takeSteps : StepTaker) : Prop :=
  ∀ operations, (∀ operation ∈ operations, operation.isPassive = true) → Idle (takeSteps operations)

variable {takeSteps : StepTaker}

theorem failure_of_load {layout : Layout} {arguments : ArgumentVector} {entry : Entry}
    (hload : layout.load arguments = .ok entry) : layout.failure = none := by
  unfold Layout.load at hload
  split at hload
  · cases hload
  · assumption

/-- The loader leaves the session alone, and what it loads is manned. -/
theorem leads_loadImage (tame : setup.Tame) (quiet : Quiet takeSteps)
    (himages : session.core.images = setup.images) (path : String) (arguments : ArgumentVector) :
    Leads (loadImage takeSteps path arguments) session fun outcome after ↦
      after = session.core ∧ ∀ entry, outcome = .ok entry → setup.Mans path := by
  unfold loadImage
  refine idle_tableSize.bind_leads fun size first hfirst ↦ ?_
  refine (idle_emit _).bind_leads fun _ second hsecond ↦ leads_get_bind ?_
  have hsecond : second.core = session.core := hsecond.trans hfirst
  split
  · exact leads_pure ⟨hsecond, nofun⟩
  next image hlookup =>
  have hsame : second.core.images = setup.images := by rw [hsecond, himages]
  have hlookup : setup.images.lookup path = some image := hsame ▸ hlookup
  obtain ⟨hpassive, hmanned⟩ : image.Tame := by
    obtain ⟨_, _, hmem, -⟩ := List.lookup_eq_some_iff.1 hlookup
    exact tame (path, image) (hmem ▸ List.mem_append_right _ List.mem_cons_self)
  have hend (last : Session) (hlast : last.core = session.core) :
      Leads (pure (image.layout.load arguments)) last fun outcome after ↦
        after = session.core ∧ ∀ entry, outcome = .ok entry → setup.Mans path := by
    refine leads_pure ⟨hlast, fun entry hload ↦ ?_⟩
    obtain ⟨code, hprogram, hcode⟩ := hmanned (failure_of_load hload)
    exact ⟨image, code, hlookup, hprogram, hcode⟩
  split
  · exact hend second hsecond
  next operations hduring =>
  refine leads_get_bind ?_
  split
  · exact hend second hsecond
  · rw [hduring] at hpassive
    refine leads_modify_bind ((quiet operations hpassive).bind_leads fun _ third hthird ↦ ?_)
    exact (idle_emit _).bind_leads fun _ last hlast ↦
      hend last (hlast.trans (hthird.trans hsecond))

/-- How a call is answered once the image that it may need is loaded. -/
inductive Finished (reply : Kernel.Reply Waker) (answer : Kernel.Answer) (after : Core) : Prop where
  | plain (hloads : reply.kernel.loads = []) (hanswer : answer = reply.answer)
      (hkernel : after.kernel = reply.kernel)
  | loaded {load : Kernel.Load} {outcome : Except LoadFailure Entry}
      (hloads : reply.kernel.loads = [load]) (hanswer : answer = load.answer outcome)

/-- The invariant while nothing is being loaded. -/
def Settled (setup : Setup) (owners : RequestId → Option TaskId) (active : Option Actor)
    (core : Core) : Prop :=
  Tended setup owners active [] core ∧ core.kernel.loads = []

theorem Settled.leads_callLoading (settled : Settled setup owners active session.core)
    (tame : setup.Tame) (quiet : Quiet takeSteps) (hends : call.endsLoad = false)
    (permitted : Permitted setup owners active session.core.kernel call) :
    Leads (callLoading takeSteps call) session fun answer after ↦
      Finished (session.core.kernel.perform call) answer after ∧
        session.core.kernel.nextRequest ≤ after.kernel.nextRequest ∧
        Settled setup owners active after := by
  obtain ⟨tended, hidle⟩ := settled
  refine (tended.leads_call permitted).bind fun answer middle ⟨hcalled, hmiddle⟩ ↦ ?_
  obtain ⟨rfl, hkernel, -⟩ := hcalled
  have hgrows : session.core.kernel.nextRequest ≤ middle.core.kernel.nextRequest :=
    hkernel ▸ Kernel.nextRequest_le _ _
  obtain ⟨hsame, hother⟩ | ⟨load, hpushed, hloading⟩ :=
    Kernel.loads_perform session.core.kernel hends
  · rw [hidle] at hsame
    split
    · next path arguments hanswer => exact absurd hanswer (hother path arguments)
    · exact leads_pure ⟨.plain hsame rfl hkernel, hgrows, hmiddle, by rw [hkernel, hsame]⟩
  · rw [hidle] at hpushed
    have hloads : middle.core.kernel.loads = [load] := by rw [hkernel, hpushed]
    rw [hloading]
    refine (leads_loadImage tame quiet hmiddle.images_eq _ _).bind
      fun outcome last ⟨hlast, hmans⟩ ↦ ?_
    rw [← hlast] at hmiddle hloads hgrows
    have hfinish : Permitted setup owners active last.core.kernel (.finishLoad outcome) := by
      refine ⟨.inr rfl, nofun, nofun, ?_⟩
      intro entry top rest hcall htop
      cases hcall
      rw [hloads, List.cons.injEq] at htop
      exact htop.1 ▸ hmans entry rfl
    refine (hmiddle.leads_call hfinish).mono fun answer after ⟨hcalled, hafter⟩ ↦ ?_
    obtain ⟨past, hrun, secluded⟩ := hmiddle.reached
    obtain ⟨hnone, hanswer, -⟩ := hrun.finishLoad_left secluded hloads outcome
    refine ⟨.loaded hpushed (hcalled.answer_eq.trans hanswer), ?_, hafter, ?_⟩
    · exact Nat.le_trans hgrows (hcalled.kernel_eq ▸ Kernel.nextRequest_le _ _)
    · rw [hcalled.kernel_eq, hnone]

/-! ## Requests -/

theorem Settled.leads_pollRequest {waker : Waker}
    (settled : Settled setup owners active session.core) (tame : setup.Tame)
    (quiet : Quiet takeSteps) (space : Option SpaceId)
    (permitted : ∀ memory,
      Permitted setup owners active session.core.kernel (.poll request waker memory)) :
    Leads (pollRequest takeSteps request waker space) session fun answer after ↦
      (∃ memory, Finished (session.core.kernel.perform (.poll request waker memory)) answer after) ∧
        session.core.kernel.nextRequest ≤ after.kernel.nextRequest ∧
        Settled setup owners active after := by
  have hpoll (memory : Memory) (first : Session) (hfirst : first.core = session.core)
      {rest : Kernel.Answer → SessionM Kernel.Answer}
      (hrest : ∀ answer (middle : Session), Leads (rest answer) middle fun value after ↦
        value = answer ∧ after = middle.core) :
      Leads (callLoading takeSteps (.poll request waker memory) >>= rest) first fun answer after ↦
        (∃ memory, Finished (session.core.kernel.perform (.poll request waker memory)) answer
          after) ∧ session.core.kernel.nextRequest ≤ after.kernel.nextRequest ∧
          Settled setup owners active after := by
    have hpermitted := permitted memory
    rw [← hfirst] at hpermitted settled ⊢
    refine (settled.leads_callLoading tame quiet rfl hpermitted).bind
      fun answer second ⟨hfinished, hgrows, hsecond⟩ ↦ ?_
    refine (hrest answer second).mono ?_
    rintro _ _ ⟨rfl, rfl⟩
    exact ⟨⟨memory, hfinished⟩, hgrows, hsecond⟩
  unfold pollRequest
  cases space with
  | none => exact hpoll .unmapped session rfl fun _ _ ↦ leads_pure ⟨rfl, rfl⟩
  | some space =>
    refine (idle_memory space).bind_leads fun memory first hfirst ↦
      hpoll memory first hfirst fun answer middle ↦ ?_
    split
    · exact (idle_setMemory _ _).bind_leads fun _ last hlast ↦ leads_pure ⟨rfl, hlast⟩
    · exact leads_pure ⟨rfl, rfl⟩

theorem Settled.leads_openRequest (settled : Settled setup owners active session.core)
    (hopens : (∃ caller target, call = .openJoin caller target) ∨
      ∃ syscall, call = .openSyscall syscall) :
    Leads (openRequest call) session fun request after ↦
      request = session.core.kernel.nextRequest ∧ owners request = none ∧
        after.kernel.nextRequest = request + 1 ∧
        after.kernel = (session.core.kernel.perform call).kernel ∧
        after.handles = session.core.handles ∧ Settled setup owners active after := by
  obtain ⟨tended, hidle⟩ := settled
  have permitted : Permitted setup owners active session.core.kernel call := by
    obtain ⟨caller, target, rfl⟩ | ⟨syscall, rfl⟩ := hopens <;>
      exact permitted_of_nameless hidle rfl rfl
  have hreply : (session.core.kernel.perform call).answer =
        .opened session.core.kernel.nextRequest ∧
      (session.core.kernel.perform call).kernel.nextRequest =
        session.core.kernel.nextRequest + 1 ∧
      (session.core.kernel.perform call).kernel.loads = session.core.kernel.loads := by
    obtain ⟨caller, target, rfl⟩ | ⟨syscall, rfl⟩ := hopens <;> exact ⟨rfl, rfl, rfl⟩
  have hfree : owners session.core.kernel.nextRequest = none := by
    rw [Option.eq_none_iff_forall_ne_some]
    exact fun owner howner ↦ Nat.lt_irrefl _ (tended.opened howner)
  refine (tended.leads_call permitted).bind fun answer after ⟨hcalled, hafter⟩ ↦ ?_
  obtain ⟨rfl, hkernel, hhandles⟩ := hcalled
  rw [hreply.1]
  exact leads_pure ⟨rfl, hfree, hkernel ▸ hreply.2.1, hkernel, hhandles, hafter,
    by rw [hkernel, hreply.2.2, hidle]⟩

theorem Settled.leads_call (settled : Settled setup owners active session.core)
    (hends : call.endsLoad = false) (hloads : call.mayLoad = false)
    (permitted : Permitted setup owners active session.core.kernel call) :
    Leads (Session.call call) session fun answer after ↦
      answer = (session.core.kernel.perform call).answer ∧ Settled setup owners active after := by
  obtain ⟨tended, hidle⟩ := settled
  refine (tended.leads_call permitted).mono fun answer after ⟨hcalled, hafter⟩ ↦ ?_
  refine ⟨hcalled.answer_eq, hafter, ?_⟩
  obtain ⟨hsame, -⟩ | ⟨load, -, hloading⟩ := Kernel.loads_perform session.core.kernel hends
  · rw [hcalled.kernel_eq, hsame, hidle]
  · exact absurd hloading (Kernel.ne_loading _ hloads _ _)

theorem Settled.leads_dropRequest (settled : Settled setup owners active session.core)
    (howner : owners request = none) :
    Leads (dropRequest request) session fun _ after ↦ Settled setup owners active after := by
  have permitted : Permitted setup owners active session.core.kernel (.abandon request) := by
    refine ⟨.inl settled.2, ?_, nofun, nofun⟩
    rintro other ⟨⟩
    exact .inl howner
  exact (settled.leads_call rfl rfl permitted).bind fun _ after ⟨_, hafter⟩ ↦ leads_pure hafter

end Lifecycle.Session
