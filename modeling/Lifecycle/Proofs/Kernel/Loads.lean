import Lifecycle.Proofs.Kernel.Counting

/-!
# Loads in progress

Loads are nested: only the innermost can end, and those below it wait. So between the step that
begins a load and the one that ends it the load stays where it is, and all loads that begin on top
of it are over before. As long as the process that is being loaded has a record, loads on top of
it are for other ids.
-/

namespace Lifecycle.Kernel

variable {Waker : Type} {past earlier meanwhile : List (Step Waker)} {kernel : Kernel Waker}
  {begun step : Step Waker} {load : Load} {rest : List Load} {pid : Pid} {birth : Nat}

/-! ## Answers to loads -/

/-- What a load comes to if it does not stop on a fault. -/
def Load.result (load : Load) : Except LoadFailure Entry → Except Errno Pid
  | .ok _ => .ok load.pid
  | .error cause => .error cause.toErrno

/-- The answer to whoever asked for a load. -/
def Load.answer (load : Load) (outcome : Except LoadFailure Entry) : Answer :=
  if load.bySyscall then .returned (Syscall.execValue (load.result outcome)) none
  else
    match load.result outcome with
    | .ok pid => .spawned pid
    | .error cause => .refused cause

theorem endLoad_result (sound : kernel.table.Sound) (load : Load)
    (outcome : Except LoadFailure Entry) :
    (∃ after audible, (endLoad load outcome).Yields kernel.table (load.result outcome) after
      audible) ∨
    (endLoad load outcome).Faults kernel.table := by
  cases outcome with
  | ok entry => exact .inl ⟨_, _, endLoad_ok kernel.table load entry⟩
  | error cause =>
    obtain ⟨after, audible, -, hyields⟩ | ⟨-, hfaults⟩ := endLoad_error sound load cause
    · exact .inl ⟨after, audible, hyields⟩
    · exact .inr hfaults

theorem answer_finishLoad (sound : kernel.table.Sound) (hloads : kernel.loads = load :: rest)
    {outcome : Except LoadFailure Entry} (hsafe : ¬ (kernel.finishLoad outcome).Faulted) :
    (kernel.finishLoad outcome).answer = load.answer outcome := by
  simp only [finishLoad, hloads] at hsafe ⊢
  obtain ⟨after, audible, hyields⟩ | hfaults := endLoad_result sound load outcome
  · rw [Load.answer]
    split
    · obtain ⟨added, -, hran⟩ := answerExec_yields hyields []
      rw [act, hran]
      rfl
    · obtain ⟨added, -, hran⟩ := hyields []
      rw [act, hran]
      cases load.result outcome <;> rfl
  · refine absurd ?_ hsafe
    split
    · exact faulted_of_faults hfaults.attempt.bind
    · exact faulted_of_faults hfaults

/-- Only a load that ends makes a demand to settle one, the innermost. -/
theorem call_of_settle {call : Call Waker} {outcome : Except LoadFailure Entry}
    (hdemand : kernel.demand call = .settle load outcome) :
    call = .finishLoad outcome ∧ ∃ loads, kernel.loads = load :: loads := by
  cases call with
  | finishLoad other =>
    cases hloads : kernel.loads with
    | nil => simp [demand, hloads] at hdemand
    | cons top loads =>
      simp only [demand, hloads] at hdemand
      cases hdemand
      exact ⟨rfl, loads, rfl⟩
  | poll request waker memory =>
    cases hrequest : kernel.requests[request]? with
    | none => simp [demand, hrequest] at hdemand
    | some entry =>
      cases entry with
      | join | collecting => simp [demand, hrequest] at hdemand
      | syscall call =>
        simp only [demand, hrequest, Syscall.demand] at hdemand
        grind
  | abandon request =>
    cases hrequest : kernel.requests[request]? with
    | none => simp [demand, hrequest] at hdemand
    | some entry => cases entry <;> simp [demand, hrequest] at hdemand
  | spawn | terminate | shutdown | openJoin | openSyscall => simp [demand] at hdemand

/-! ## How loads are nested -/

/-- What a demand does to the loads in progress. -/
inductive Stacks (kernel : Kernel Waker) (demand : Demand Waker) (after : Table Waker) :
    List Load → Prop where
  | same (hother : ∀ load outcome, demand ≠ .settle load outcome) :
      kernel.Stacks demand after kernel.loads
  | pushed {load : Load} {name : String} (hdemand : demand = .start load.parent)
      (hinserted : kernel.table.Inserted after load.parent name load.pid) :
      kernel.Stacks demand after (load :: kernel.loads)
  | popped {load : Load} {loads : List Load} {outcome : Except LoadFailure Entry}
      (hdemand : demand = .settle load outcome) (hloads : kernel.loads = load :: loads) :
      kernel.Stacks demand after loads

theorem Change.stacks {demand : Demand Waker} {after : Table Waker} {loads : List Load}
    {audible : List (Effect Waker)} {answer : Answer}
    (change : kernel.Change demand after loads audible answer) :
    kernel.Stacks demand after loads := by
  cases change with
  | unchanged hvoid =>
    refine .same ?_
    rintro load outcome rfl
    cases hvoid
  | inserted hinserted => exact .pushed rfl hinserted
  | admitted hloads => exact .popped rfl hloads
  | gone hloads => exact .popped rfl hloads
  | withdrawn hloads => exact .popped rfl hloads
  | ended | cleared | polled | released => exact .same nofun

theorem Change.loads_of_settle {outcome : Except LoadFailure Entry} {after : Table Waker}
    {loads : List Load} {audible : List (Effect Waker)} {answer : Answer}
    (change : kernel.Change (.settle load outcome) after loads audible answer) :
    kernel.loads = load :: loads := by
  generalize hdemand : Demand.settle load outcome = demand at change
  have hstacks := change.stacks
  subst hdemand
  cases hstacks with
  | same hother => exact absurd rfl (hother load outcome)
  | pushed hstart => cases hstart
  | popped hsettle hloads =>
    cases hsettle
    exact hloads

theorem Change.of_admitted {demand : Demand Waker} {after : Table Waker} {loads : List Load}
    {audible : List (Effect Waker)} {answer : Answer} {path : String} {entry : Entry} {size : Nat}
    (change : kernel.Change demand after loads audible answer)
    (hmem : .admitted pid path entry size ∈ audible) :
    ∃ load, demand = .settle load (.ok entry) ∧ load.pid = pid ∧ load.path = path := by
  cases change with
  | unchanged _ hquiet =>
    obtain ⟨size, hhalt⟩ := hquiet _ hmem
    cases hhalt
  | admitted =>
    rw [List.mem_singleton] at hmem
    cases hmem
    exact ⟨_, rfl, rfl, rfl⟩
  | ended hends => cases hends <;> simp at hmem
  | withdrawn | cleared => simp at hmem
  | inserted | gone | polled | released => cases hmem

/-- A load that ends well shows no more than who is admitted. -/
theorem Change.audible_of_admitted {entry : Entry} {after : Table Waker} {loads : List Load}
    {audible : List (Effect Waker)} {answer : Answer}
    (change : kernel.Change (.settle load (.ok entry)) after loads audible answer) :
    audible = [.admitted load.pid load.path entry kernel.table.size] := by
  cases change with
  | unchanged hvoid => cases hvoid
  | admitted => rfl

/-- A load since it began. -/
structure Loading (begun : Step Waker) (meanwhile : List (Step Waker)) (load : Load) : Prop where
  begins : begun.after.loads = load :: begun.before.loads
  stays {step : Step Waker} (hmem : step ∈ meanwhile) :
    load :: begun.before.loads <:+ step.after.loads

/-- The step that begins a load takes its process in. -/
theorem Run.exists_inserted (hrun : Run (earlier ++ begun :: meanwhile) kernel)
    (hbegins : begun.after.loads = load :: begun.before.loads) :
    ∃ name, begun.before.table.Inserted begun.after.table load.parent name load.pid := by
  obtain ⟨hbefore, hsafe⟩ := hrun.of_append
  have hstacks := (begun.change hbefore.sound hsafe).stacks
  rw [hbegins] at hstacks
  generalize hloads : load :: begun.before.loads = loads at hstacks
  cases hstacks with
  | same => simp at hloads
  | pushed _ hinserted =>
    cases hloads
    exact ⟨_, hinserted⟩
  | popped _ hpopped =>
    have hlength := congrArg List.length hloads
    simp [hpopped] at hlength
    omega

/-- Each load in progress was begun by a step and has stayed where it is. -/
theorem Run.exists_loading (hrun : Run past kernel) (hsuffix : load :: rest <:+ kernel.loads) :
    ∃ earlier begun meanwhile, past = earlier ++ begun :: meanwhile ∧
      begun.before.loads = rest ∧ Loading begun meanwhile load := by
  induction hrun with
  | start => simp [initial] at hsuffix
  | @step past kernel hrun call hsafe ih =>
    let step : Step Waker := ⟨kernel, call⟩
    have hstacks := (step.change hrun.sound hsafe).stacks
    -- a load that was in progress before has stayed there in this step, too
    have hold (hbefore : load :: rest <:+ kernel.loads) :
        ∃ earlier begun meanwhile, past ++ [step] = earlier ++ begun :: meanwhile ∧
          begun.before.loads = rest ∧ Loading begun meanwhile load := by
      obtain ⟨earlier, begun, meanwhile, rfl, rfl, hbegins, hstays⟩ := ih hbefore
      refine ⟨earlier, begun, meanwhile ++ [step], by simp, rfl, hbegins, ?_⟩
      intro other hmem
      obtain hmem | hlast := List.mem_append.1 hmem
      · exact hstays hmem
      · rw [List.mem_singleton.1 hlast]
        exact hsuffix
    change load :: rest <:+ step.after.loads at hsuffix
    generalize hloads : step.after.loads = loads at hstacks hsuffix
    cases hstacks with
    | same => exact hold hsuffix
    | pushed _ hinserted =>
      obtain heq | hbefore := List.suffix_cons_iff.1 hsuffix
      · cases heq
        exact ⟨past, step, [], rfl, rfl, hloads, by simp⟩
      · exact hold hbefore
    | popped _ hpopped =>
      apply hold
      rw [hpopped]
      exact hsuffix.trans (List.suffix_cons _ _)

/-! ## The process that is being loaded -/

/-- The loads on top of a load are for other ids. -/
def Apart (load : Load) (rest loads : List Load) : Prop :=
  ∃ above, loads = above ++ load :: rest ∧ ∀ other ∈ above, other.pid ≠ load.pid

theorem Apart.of_cons {other : Load} {loads : List Load} (apart : Apart load rest (other :: loads))
    (hsuffix : load :: rest <:+ loads) : other.pid ≠ load.pid ∧ Apart load rest loads := by
  obtain ⟨above, habove, hapart⟩ := apart
  cases above with
  | nil =>
    rw [List.nil_append, List.cons.injEq] at habove
    have hlength := hsuffix.length_le
    rw [habove.2, List.length_cons] at hlength
    omega
  | cons top above =>
    rw [List.cons_append, List.cons.injEq] at habove
    rw [List.forall_mem_cons] at hapart
    exact ⟨habove.1 ▸ hapart.1, above, habove.2, hapart.2⟩

/-- The process that is being loaded runs, as the one it was when the load began. -/
structure Held (load : Load) (birth : Nat) (rest : List Load) (kernel : Kernel Waker) : Prop where
  born : kernel.table.birthOf? load.pid = some birth
  running : kernel.table.phaseOf? load.pid = some .running
  apart : Apart load rest kernel.loads

theorem Held.begin {name : String}
    (hinserted : begun.before.table.Inserted begun.after.table load.parent name load.pid)
    (hbegins : begun.after.loads = load :: rest) :
    Held load begun.before.table.births rest begun.after where
  born := by rw [hinserted.birthOf?_eq, if_pos rfl]
  running := by rw [hinserted.phaseOf?_eq, if_pos rfl]
  apart := ⟨[], hbegins, nofun⟩

section Next

variable (held : Held load birth rest step.before)
  (change : step.before.Change step.demand step.after.table step.after.loads step.reply.audible
    step.reply.answer)
  (hsuffix : load :: rest <:+ step.after.loads)

include held change hsuffix

theorem Held.apart_next : Apart load rest step.after.loads := by
  have hstacks := change.stacks
  generalize hloads : step.after.loads = loads at hstacks hsuffix
  cases hstacks with
  | same => exact held.apart
  | @pushed new _ _ hinserted =>
    obtain ⟨above, habove, hapart⟩ := held.apart
    refine ⟨new :: above, by rw [habove, List.cons_append], ?_⟩
    rw [List.forall_mem_cons]
    refine ⟨fun heq ↦ ?_, hapart⟩
    have hrunning := held.running
    rw [← heq, Table.phaseOf?_eq_none_iff.2 hinserted.absent] at hrunning
    cases hrunning
  | popped _ hpopped =>
    have hapart := held.apart
    rw [hpopped] at hapart
    exact (hapart.of_cons hsuffix).2

/-- A load that ends on top is for another process. -/
theorem Held.ne_of_settle {other : Load} {outcome : Except LoadFailure Entry}
    (hdemand : step.demand = .settle other outcome) : other.pid ≠ load.pid := by
  have hstacks := change.stacks
  generalize hloads : step.after.loads = loads at hstacks hsuffix
  cases hstacks with
  | same hother => exact absurd hdemand (hother other outcome)
  | pushed hstart =>
    rw [hdemand] at hstart
    cases hstart
  | popped hsettle hpopped =>
    rw [hdemand] at hsettle
    cases hsettle
    have hapart := held.apart
    rw [hpopped] at hapart
    exact (hapart.of_cons hsuffix).1

/-- Only its end, or the end of all, takes a process away from its load. -/
theorem Held.next (sound : step.before.table.Sound) (hstops : step.stops = false)
    (hending : ∀ status, step.ending? ≠ some (birth, status)) :
    Held load birth rest step.after := by
  have hrunning := held.running
  have hkept : step.after.table.birthOf? load.pid = some birth ∧
      step.after.table.phaseOf? load.pid = some .running := by
    obtain hdrops | ⟨hborn, hphase | ⟨-, status, hended, -⟩⟩ :=
      fate sound held.born hrunning change
    · cases hdrops with
      | collected _ _ _ _ _ hexited =>
        rw [hrunning] at hexited
        cases hexited
      | unclaimed _ _ _ hexited =>
        rw [hrunning] at hexited
        cases hexited
      | parentless hdemand =>
        exact absurd (ending?_of_running hdemand hrunning held.born) (hending _)
      | tornDown size hstop =>
        rw [step.stops_of_mem hstop] at hstops
        cases hstops
      | rolledBack hdemand hpid =>
        exact absurd hpid (held.ne_of_settle change hsuffix hdemand)
    · exact ⟨hborn, hphase⟩
    · exact absurd hended (hending status)
  exact ⟨hkept.1, hkept.2, held.apart_next change hsuffix⟩

end Next

/-- A process that does not end stays with its load until the machine stops. -/
theorem Loading.held (hrun : Run (earlier ++ begun :: meanwhile) kernel)
    (loading : Loading begun meanwhile load)
    (hquiet : ∀ step ∈ meanwhile, step.stops = false ∧
      ∀ status, step.ending? ≠ some (begun.before.table.births, status)) :
    Held load begun.before.table.births begun.before.loads kernel := by
  obtain ⟨name, hinserted⟩ := hrun.exists_inserted loading.begins
  refine hrun.since (motive := fun _ ↦ Held load _ _) ?_ ?_
  · exact .begin hinserted loading.begins
  · rintro sofar step rest rfl hbefore hsafe held
    have hmem : step ∈ sofar ++ step :: rest := List.mem_append_cons_self
    obtain ⟨hstops, hending⟩ := hquiet step hmem
    exact held.next (step.change hbefore.sound hsafe) (loading.stays hmem) hbefore.sound hstops
      hending

end Lifecycle.Kernel
