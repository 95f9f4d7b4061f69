import Lifecycle.Proofs.Kernel.Loads
import Lifecycle.Proofs.Kernel.Requests

/-!
# Who is admitted

A process is admitted when its load has ended well. The table is not asked again by then, so the
process that is admitted is the one that was taken in, and runs, exactly if nobody ended it and the
machine did not stop while its image was being loaded.
-/

namespace Lifecycle.Kernel

variable {Waker : Type} {past earlier later : List (Step Waker)} {kernel : Kernel Waker}
  {step : Step Waker} {pid : Pid}

/-! ## The past of a record -/

theorem Run.births_le_since {first : Step Waker} (hrun : Run (earlier ++ first :: later) kernel) :
    first.after.table.births ≤ kernel.table.births := by
  refine hrun.since (motive := fun _ kernel ↦ first.after.table.births ≤ kernel.table.births)
    (Nat.le_refl _) ?_
  intro sofar step rest _ hbefore hsafe hle
  exact Nat.le_trans hle ((step.change hbefore.sound hsafe).births_le hbefore.sound)

/-- A record that is older than a step was there after the step. -/
theorem Run.birthOf?_of_old {first : Step Waker} {birth : Nat}
    (hrun : Run (earlier ++ first :: later) kernel) (hold : birth < first.after.table.births)
    (hbirth : kernel.table.birthOf? pid = some birth) :
    first.after.table.birthOf? pid = some birth := by
  revert hbirth
  refine hrun.since
    (motive := fun _ kernel ↦ kernel.table.birthOf? pid = some birth → _) (fun h ↦ h) ?_
  intro sofar step rest _ hbefore hsafe hback hbirth
  have hlt : birth < step.before.table.births := Nat.lt_of_lt_of_le hold hbefore.births_le_since
  exact hback ((step.change hbefore.sound hsafe).birthOf?_of_old hbefore.sound hlt hbirth)

/-! ## Admissions -/

/-- A load in a run that ended well: the step that began it, those of the loader, and the step that
admits the process. -/
@[ext]
structure Admission (past : List (Step Waker)) where
  earlier : List (Step Waker)
  begun : Step Waker
  meanwhile : List (Step Waker)
  step : Step Waker
  later : List (Step Waker)
  load : Load
  entry : Entry
  past_eq : past = earlier ++ begun :: meanwhile ++ step :: later
  loading : Loading begun meanwhile load
  demand_eq : step.demand = .settle load (.ok entry)
  loads_eq : step.before.loads = load :: begun.before.loads

namespace Admission

variable (admission : Admission past)

/-- The birth of the record that was made for the process. -/
def birth : Nat := admission.begun.before.table.births

/-- At the time of the admission the process has the record that was made for it, and runs. -/
def IsLive : Prop :=
  admission.step.before.table.birthOf? admission.load.pid = some admission.birth ∧
    admission.step.before.table.phaseOf? admission.load.pid = some .running

/-- Nobody ended the process while its image was being loaded, and the machine did not stop. -/
def Undisturbed : Prop :=
  ∀ step ∈ admission.meanwhile,
    step.stops = false ∧ ∀ status, step.ending? ≠ some (admission.birth, status)

theorem begun_mem : admission.begun ∈ past := by
  have hmem : admission.begun ∈ admission.earlier ++ admission.begun :: admission.meanwhile :=
    List.mem_append_cons_self
  have hpast := List.mem_append_left (admission.step :: admission.later) hmem
  rwa [← admission.past_eq] at hpast

variable (hrun : Run past kernel)

include hrun

theorem run_before :
    Run (admission.earlier ++ admission.begun :: admission.meanwhile) admission.step.before ∧
      ¬ admission.step.reply.Faulted := by
  rw [admission.past_eq] at hrun
  exact hrun.of_append

theorem births_begun : admission.begun.after.table.births = admission.birth + 1 := by
  obtain ⟨name, hinserted⟩ := (admission.run_before hrun).1.exists_inserted admission.loading.begins
  exact hinserted.births_eq

theorem isLive_of_undisturbed (hquiet : admission.Undisturbed) : admission.IsLive := by
  have held := admission.loading.held (admission.run_before hrun).1 hquiet
  exact ⟨held.born, held.running⟩

theorem undisturbed_of_isLive (hlive : admission.IsLive) : admission.Undisturbed := by
  obtain ⟨hborn, hrunning⟩ := hlive
  have hbefore := (admission.run_before hrun).1
  intro step hmem
  have hpast : step ∈ admission.earlier ++ admission.begun :: admission.meanwhile :=
    List.mem_append_right _ (List.mem_cons_of_mem _ hmem)
  constructor
  · -- nothing that was there before a stop is there afterwards
    by_contra hstops
    rw [Bool.not_eq_false] at hstops
    obtain ⟨sofar, rest, hsplit⟩ := List.append_of_mem hmem
    rw [hsplit, ← List.cons_append, ← List.append_assoc] at hbefore
    obtain ⟨hstart, hsafe⟩ := hbefore.of_append
    obtain ⟨last, hvacated⟩ := step.vacated_of_stops hstart.sound hsafe hstops
    have hold : admission.birth < step.after.table.births := by
      calc
        admission.birth < admission.begun.after.table.births := by
          rw [admission.births_begun hrun]
          exact Nat.lt_succ_self _
        _ ≤ step.before.table.births := hstart.births_le_since
        _ ≤ step.after.table.births := (step.change hstart.sound hsafe).births_le hstart.sound
    have hgone := hbefore.birthOf?_of_old hold hborn
    rw [hvacated] at hgone
    simp [Table.birthOf?] at hgone
  · intro status hended
    exact (hbefore.ledger.ended_stopped hpast hended).2 _ hborn hrunning

theorem isLive_iff : admission.IsLive ↔ admission.Undisturbed :=
  ⟨admission.undisturbed_of_isLive hrun, admission.isLive_of_undisturbed hrun⟩

end Admission

/-! ## Where processes are admitted -/

theorem Run.exists_admission (hrun : Run past kernel) (hmem : step ∈ past) {load : Load}
    {entry : Entry} (hdemand : step.demand = .settle load (.ok entry)) :
    ∃ admission : Admission past,
      admission.step = step ∧ admission.load = load ∧ admission.entry = entry := by
  obtain ⟨before, later, rfl⟩ := List.append_of_mem hmem
  obtain ⟨-, loads, hloads⟩ := call_of_settle hdemand
  have hsuffix : load :: loads <:+ step.before.loads := by rw [hloads]
  obtain ⟨earlier, begun, meanwhile, rfl, rfl, loading⟩ :=
    hrun.of_append.1.exists_loading hsuffix
  exact ⟨⟨earlier, begun, meanwhile, step, later, load, entry, rfl, loading, hdemand, hloads⟩,
    rfl, rfl, rfl⟩

theorem act_ne_spawned {α : Type} {acting : Kernel Waker} {action : Action Waker α}
    {settle : Kernel Waker → α → Kernel Waker × Answer} {unsettle : Kernel Waker → Kernel Waker}
    (hsettle : ∀ kernel value, (settle kernel value).2 ≠ .spawned pid) :
    (acting.act action settle unsettle).answer ≠ .spawned pid := by
  refine act_induction (·.answer ≠ .spawned pid) (fun _ _ value ↦ hsettle _ value) ?_
  intro _ _ failure
  cases failure <;> nofun

theorem settleSyscall_ne_spawned (request : RequestId) (kernel : Kernel Waker)
    (progress : Progress) : (settleSyscall request kernel progress).2 ≠ .spawned pid := by
  cases progress <;> nofun

theorem settleJoin_ne_spawned (request : RequestId) (wait : Wait) (kernel : Kernel Waker)
    (outcome : Option (Except Errno ExitStatus)) :
    (settleJoin request wait kernel outcome).2 ≠ .spawned pid := by
  match outcome with
  | none | some (.ok _) | some (.error _) => nofun

/-- Only the end of a load is answered with an id. -/
theorem call_of_spawned {call : Call Waker}
    (hanswer : (kernel.perform call).answer = .spawned pid) :
    ∃ outcome, call = .finishLoad outcome := by
  cases call with
  | finishLoad outcome => exact ⟨outcome, rfl⟩
  | spawn => exact absurd hanswer (act_ne_spawned (by simp [pushLoad]))
  | terminate | shutdown => exact absurd hanswer (act_ne_spawned (by simp))
  | openJoin | openSyscall => cases hanswer
  | poll request waker memory =>
    simp only [perform, poll] at hanswer
    split at hanswer
    · cases hanswer
    · exact absurd hanswer (act_ne_spawned (settleJoin_ne_spawned request _))
    · exact absurd hanswer (act_ne_spawned (settleSyscall_ne_spawned request))
    · exact absurd hanswer (act_ne_spawned (settleSyscall_ne_spawned request))
  | abandon request =>
    simp only [perform, abandon] at hanswer
    split at hanswer
    · cases hanswer
    · cases hanswer
    · exact absurd hanswer (act_ne_spawned (by simp))
    · exact absurd hanswer (act_ne_spawned (by simp))

theorem answer_of_spawned {load : Load} {outcome : Except LoadFailure Entry}
    (hanswer : load.answer outcome = .spawned pid) :
    ∃ entry, outcome = .ok entry ∧ load.pid = pid := by
  unfold Load.answer at hanswer
  split at hanswer
  · cases hanswer
  · cases outcome with
    | ok entry =>
      cases hanswer
      exact ⟨entry, rfl, rfl⟩
    | error cause => cases hanswer

theorem answer_of_returned {load : Load} {outcome : Except LoadFailure Entry} {value : Int}
    {written : Option Memory} (hanswer : load.answer outcome = .returned value written)
    (hpositive : 0 < value) : ∃ entry, outcome = .ok entry ∧ value = load.pid := by
  unfold Load.answer at hanswer
  split at hanswer
  · cases outcome with
    | ok entry =>
      cases hanswer
      exact ⟨entry, rfl, rfl⟩
    | error cause =>
      cases hanswer
      simp [Load.result, Syscall.execValue, Syscall.execFailed] at hpositive
  · cases outcome <;> cases hanswer

theorem Run.answer_of_finishLoad (hrun : Run past kernel) (hmem : step ∈ past)
    {outcome : Except LoadFailure Entry} (hcall : step.call = .finishLoad outcome) :
    step.reply.answer = .absent ∨
      ∃ load, step.demand = .settle load outcome ∧ step.reply.answer = load.answer outcome := by
  obtain ⟨before, later, rfl⟩ := List.append_of_mem hmem
  obtain ⟨hbefore, hsafe⟩ := hrun.of_append
  rw [Step.reply, hcall] at hsafe ⊢
  rw [Step.demand, hcall]
  cases hloads : step.before.loads with
  | nil => exact .inl (by simp only [perform, finishLoad, hloads])
  | cons load loads =>
    refine .inr ⟨load, ?_, answer_finishLoad hbefore.sound hloads hsafe⟩
    simp only [demand, hloads]

/-! ## One admission for each record -/

/-- What lies between two places in a list. -/
theorem exists_between {Item : Type} {front ahead behind back : List Item} {first second : Item}
    (hsame : front ++ first :: behind = ahead ++ second :: back)
    (hlt : front.length < ahead.length) :
    ∃ between, ahead = front ++ first :: between ∧ behind = between ++ second :: back := by
  obtain ⟨between, hahead, hbehind⟩ | ⟨between, hfront, -⟩ := List.append_eq_append_iff.1 hsame
  · cases between with
    | nil =>
      rw [hahead, List.append_nil] at hlt
      exact absurd hlt (Nat.lt_irrefl _)
    | cons item between =>
      cases hbehind
      exact ⟨between, hahead, rfl⟩
  · rw [hfront, List.length_append] at hlt
    omega

namespace Admission

variable {first second : Admission past} (hrun : Run past kernel)

include hrun

/-- The record of a load that began later was born later. -/
theorem birth_lt (hlt : first.earlier.length < second.earlier.length) :
    first.birth < second.birth := by
  have hsame := first.past_eq.symm.trans second.past_eq
  rw [List.append_assoc, List.append_assoc] at hsame
  obtain ⟨between, hbetween, -⟩ := exists_between hsame hlt
  have hstart := ((second.run_before hrun).1.of_append).1
  rw [hbetween] at hstart
  calc
    first.birth < first.begun.after.table.births := by
      rw [first.births_begun hrun]
      exact Nat.lt_succ_self _
    _ ≤ second.birth := hstart.births_le_since

theorem earlier_eq (hbirth : first.birth = second.birth) : first.earlier = second.earlier := by
  have hsame := first.past_eq.symm.trans second.past_eq
  rw [List.append_assoc, List.append_assoc] at hsame
  obtain hlt | heq | hlt := Nat.lt_trichotomy first.earlier.length second.earlier.length
  · exact absurd hbirth (Nat.ne_of_lt (birth_lt hrun hlt))
  · exact (List.append_inj hsame heq).1
  · exact absurd hbirth.symm (Nat.ne_of_lt (birth_lt hrun hlt))

/-- A load is over after the step that admits the process. -/
theorem load_over (admission : Admission past) :
    ¬ admission.load :: admission.begun.before.loads <:+ admission.step.after.loads := by
  obtain ⟨hbefore, hsafe⟩ := admission.run_before hrun
  have change := admission.step.change hbefore.sound hsafe
  rw [admission.demand_eq] at change
  have hloads := change.loads_of_settle
  rw [admission.loads_eq, List.cons.injEq] at hloads
  intro hsuffix
  have hlength := hsuffix.length_le
  rw [hloads.2] at hlength
  exact Nat.not_succ_le_self _ hlength

theorem not_length_lt (hearlier : first.earlier = second.earlier) :
    ¬ first.meanwhile.length < second.meanwhile.length := by
  intro hlt
  have hsame := first.past_eq.symm.trans second.past_eq
  rw [hearlier, List.append_assoc, List.append_assoc, List.append_cancel_left_eq,
    List.cons_append, List.cons_append, List.cons.injEq] at hsame
  obtain ⟨hbegun, hsame⟩ := hsame
  obtain ⟨between, hbetween, -⟩ := exists_between hsame hlt
  have hmem : first.step ∈ second.meanwhile := by
    rw [hbetween]
    exact List.mem_append_cons_self
  apply first.load_over hrun
  rw [← first.loading.begins, hbegun, second.loading.begins]
  exact second.loading.stays hmem

/-- The record of an admitted process tells which admission it was. -/
theorem eq_of_birth (hbirth : first.birth = second.birth) : first = second := by
  have hearlier := earlier_eq hrun hbirth
  have hlength : first.meanwhile.length = second.meanwhile.length :=
    Nat.le_antisymm (Nat.not_lt.1 (not_length_lt hrun hearlier.symm))
      (Nat.not_lt.1 (not_length_lt hrun hearlier))
  have hsame := first.past_eq.symm.trans second.past_eq
  rw [hearlier, List.append_assoc, List.append_assoc, List.append_cancel_left_eq,
    List.cons_append, List.cons_append, List.cons.injEq] at hsame
  obtain ⟨hbegun, hsame⟩ := hsame
  obtain ⟨hmeanwhile, hsame⟩ := List.append_inj hsame hlength
  obtain ⟨hstep, hlater⟩ := List.cons.inj hsame
  have hdemand : first.step.demand = second.step.demand := by rw [hstep]
  rw [first.demand_eq, second.demand_eq, Demand.settle.injEq, Except.ok.injEq] at hdemand
  exact Admission.ext hearlier hbegun hmeanwhile hstep hlater hdemand.1 hdemand.2

end Admission

/-! ## Admissions in a run -/

/-- How processes are admitted in a run. -/
structure AdmissionsKept (past : List (Step Waker)) (kernel : Kernel Waker) : Prop where
  /-- Nothing but the end of a load admits a process, and it is the one that was loaded. -/
  admitted {step : Step Waker} {pid : Pid} {path : String} {entry : Entry} {size : Nat}
    (hmem : step ∈ past) (hadmitted : .admitted pid path entry size ∈ step.reply.effects) :
    ∃ admission : Admission past, admission.step = step ∧ admission.load.pid = pid ∧
      admission.load.path = path ∧ admission.entry = entry
  /-- Who starts a process is answered with an id only if the process is admitted. -/
  spawned {step : Step Waker} {pid : Pid} (hmem : step ∈ past)
    (hanswer : step.reply.answer = .spawned pid) :
    ∃ admission : Admission past, admission.step = step ∧ admission.load.pid = pid
  /-- So is an EXEC syscall. -/
  returned {step : Step Waker} {outcome : Except LoadFailure Entry} {value : Int}
    {written : Option Memory} (hmem : step ∈ past) (hcall : step.call = .finishLoad outcome)
    (hanswer : step.reply.answer = .returned value written) (hpositive : 0 < value) :
    ∃ admission : Admission past, admission.step = step ∧ value = admission.load.pid
  /-- The process that is admitted has its own record and runs if and only if it was not disturbed
  while it was being loaded. -/
  isLive_iff (admission : Admission past) : admission.IsLive ↔ admission.Undisturbed
  /-- No two processes that were admitted under one id have their own records at the same time. -/
  unshared {first second : Admission past} (hpid : first.load.pid = second.load.pid)
    (hfirst : kernel.table.birthOf? first.load.pid = some first.birth)
    (hsecond : kernel.table.birthOf? second.load.pid = some second.birth) : first = second

theorem Run.admissionsKept (hrun : Run past kernel) : AdmissionsKept past kernel := by
  constructor
  case admitted =>
    intro step pid path entry size hmem hadmitted
    have haudible : .admitted pid path entry size ∈ step.reply.audible :=
      List.mem_filter.2 ⟨hadmitted, rfl⟩
    obtain ⟨load, hdemand, rfl, rfl⟩ := (hrun.of_mem hmem).2.of_admitted haudible
    obtain ⟨admission, rfl, rfl, rfl⟩ := hrun.exists_admission hmem hdemand
    exact ⟨admission, rfl, rfl, rfl, rfl⟩
  case spawned =>
    intro step pid hmem hanswer
    obtain ⟨outcome, hcall⟩ := call_of_spawned hanswer
    obtain habsent | ⟨load, hdemand, hload⟩ := hrun.answer_of_finishLoad hmem hcall
    · rw [hanswer] at habsent
      cases habsent
    · rw [hanswer] at hload
      obtain ⟨entry, rfl, rfl⟩ := answer_of_spawned hload.symm
      obtain ⟨admission, rfl, rfl, -⟩ := hrun.exists_admission hmem hdemand
      exact ⟨admission, rfl, rfl⟩
  case returned =>
    intro step outcome value written hmem hcall hanswer hpositive
    obtain habsent | ⟨load, hdemand, hload⟩ := hrun.answer_of_finishLoad hmem hcall
    · rw [hanswer] at habsent
      cases habsent
    · rw [hanswer] at hload
      obtain ⟨entry, rfl, rfl⟩ := answer_of_returned hload.symm hpositive
      obtain ⟨admission, rfl, rfl, -⟩ := hrun.exists_admission hmem hdemand
      exact ⟨admission, rfl, rfl⟩
  case isLive_iff => exact fun admission ↦ admission.isLive_iff hrun
  case unshared =>
    intro first second hpid hfirst hsecond
    rw [hpid, hsecond, Option.some_inj] at hfirst
    exact Admission.eq_of_birth hrun hfirst.symm

/-- A child is killed while it is being loaded, and then the load ends well. -/
def stillborn : List (Call Nat) :=
  [.spawn none "init" .empty, .finishLoad (.ok ⟨0, 0, 0, 0, blank⟩),
    .spawn (some 1) "child" .empty, .terminate 2 .killed, .finishLoad (.ok ⟨0, 0, 0, 0, blank⟩)]

theorem admissionsKept_stillborn :
    Run (initial.steps stillborn) (initial.reach stillborn) ∧
      AdmissionsKept (initial.steps stillborn) (initial.reach stillborn) := by
  have hrun : Run (initial.steps stillborn) (initial.reach stillborn) :=
    run_of_calls stillborn (by decide +kernel)
  exact ⟨hrun, hrun.admissionsKept⟩

/-- The child is admitted after it was killed. -/
theorem not_live_stillborn :
    Run (initial.steps stillborn) (initial.reach stillborn) ∧
      ∃ step ∈ initial.steps stillborn,
        (∃ path entry size, .admitted 2 path entry size ∈ step.reply.effects) ∧
        step.reply.answer = .spawned 2 ∧
        step.before.table.phaseOf? 2 = some (.exited .killed) := by
  have hrun : Run (initial.steps stillborn) (initial.reach stillborn) :=
    run_of_calls stillborn (by decide +kernel)
  let last : Step Nat :=
    ⟨initial.reach (stillborn.take 4), .finishLoad (.ok ⟨0, 0, 0, 0, blank⟩)⟩
  refine ⟨hrun, last, ?_, ?_, rfl, by decide +kernel⟩
  · simp [steps, stillborn, reach, last]
  · exact ⟨"child", ⟨0, 0, 0, 0, blank⟩, 2, .tail _ (.head _)⟩

end Lifecycle.Kernel
