import Lifecycle.Proofs.Kernel.Loads

/-!
# Loaders that make no calls

If a loader makes no calls of its own, the next call after the one that begins a load is the one
that ends it. Then loads are not nested, and whoever is being loaded still runs when the load ends.
So nobody is miscounted, and as long as somebody else runs no process is taken for the last. The
only fault left is to end a process that has ended; it changes nothing, so that such runs go on.
-/

namespace Lifecycle.Kernel

variable {Waker : Type} {past earlier later : List (Step Waker)} {kernel : Kernel Waker}
  {step : Step Waker} {pid other : Pid}

def Call.endsLoad : Call Waker → Bool
  | .finishLoad _ => true
  | .spawn .. | .terminate .. | .shutdown | .openJoin .. | .openSyscall _ | .poll .. | .abandon _ =>
    false

/-- While a load is in progress nothing is called but its end. -/
def Secluded (past : List (Step Waker)) : Prop :=
  ∀ step ∈ past, step.before.loads = [] ∨ step.call.endsLoad = true

instance (past : List (Step Waker)) : Decidable (Secluded past) :=
  inferInstanceAs (Decidable (∀ _ ∈ past, _))

theorem Secluded.of_append (secluded : Secluded (earlier ++ later)) : Secluded earlier :=
  fun step hmem ↦ secluded step (List.mem_append_left _ hmem)

theorem Secluded.concat {call : Call Waker} (secluded : Secluded past)
    (hcall : kernel.loads = [] ∨ call.endsLoad = true) : Secluded (past ++ [⟨kernel, call⟩]) := by
  intro other hmem
  obtain hbefore | hlast := List.mem_append.1 hmem
  · exact secluded other hbefore
  · exact List.mem_singleton.1 hlast ▸ hcall

theorem demand_of_endsLoad {call : Call Waker} (hends : call.endsLoad = true) :
    (kernel.loads = [] ∧ kernel.demand call = .nothing) ∨
      ∃ load rest outcome, kernel.loads = load :: rest ∧
        kernel.demand call = .settle load outcome := by
  cases call with
  | finishLoad outcome =>
    cases hloads : kernel.loads with
    | nil => exact .inl ⟨rfl, by simp only [demand, hloads]⟩
    | cons load rest => exact .inr ⟨load, rest, outcome, rfl, by simp only [demand, hloads]⟩
  | spawn | terminate | shutdown | openJoin | openSyscall | poll | abandon => cases hends

/-- There is one load at most, and it is of a process that runs and has no children yet. -/
theorem Run.loads_of_secluded (hrun : Run past kernel) (secluded : Secluded past) :
    kernel.loads = [] ∨
      ∃ load, kernel.loads = [load] ∧ kernel.table.phaseOf? load.pid = some .running ∧
        ∀ child, ¬ kernel.table.HasChild load.pid child := by
  induction hrun with
  | start => exact .inl rfl
  | @step past kernel hrun call hsafe ih =>
    have hbefore := ih secluded.of_append
    have hstacks := (change_of_safe hrun.sound hsafe).stacks
    have hcall : kernel.loads = [] ∨ call.endsLoad = true :=
      secluded ⟨kernel, call⟩ (List.mem_append_right _ (List.mem_singleton_self _))
    have hlast := hcall.imp_right (@demand_of_endsLoad _ kernel _)
    generalize (kernel.perform call).kernel.loads = loads at hstacks ⊢
    generalize (kernel.perform call).kernel.table = after at hstacks ⊢
    cases hstacks with
    | same hother =>
      obtain hidle | ⟨hidle, -⟩ | ⟨load, -, outcome, -, hdemand⟩ := hlast
      · exact .inl hidle
      · exact .inl hidle
      · exact absurd hdemand (hother load outcome)
    | @pushed load _ hstart hinserted =>
      rw [hstart] at hlast
      obtain hidle | ⟨-, hdemand⟩ | ⟨_, -, _, -, hdemand⟩ := hlast
      · have habsent (child : Pid) : ¬ kernel.table.HasChild load.pid child := by
          simp [Table.HasChild, hinserted.absent]
        have hother : load.parent ≠ some load.pid := by
          intro hself
          obtain ⟨record, hrecord, -⟩ := hinserted.parent_running hself
          rw [Option.mem_def, hinserted.absent] at hrecord
          cases hrecord
        refine .inr ⟨load, by rw [hidle], ?_, fun child hchild ↦ ?_⟩
        · rw [hinserted.phaseOf?_eq, if_pos rfl]
        · obtain ⟨hself, -⟩ | hchild := (hinserted.hasChild_iff load.pid child).1 hchild
          · exact hother hself
          · exact habsent child hchild
      · cases hdemand
      · cases hdemand
    | popped _ hpopped =>
      obtain hnone | ⟨load, hone, -⟩ := hbefore
      · rw [hpopped] at hnone
        cases hnone
      · rw [hpopped, List.cons.injEq] at hone
        exact .inl hone.2

/-- No process that is withdrawn has exited. -/
theorem Run.withdrawsExited_of_secluded (hrun : Run past kernel) (secluded : Secluded past)
    (hmem : step ∈ past) : step.withdrawsExited = false := by
  obtain ⟨earlier, later, rfl⟩ := List.append_of_mem hmem
  have hloads := hrun.of_append.1.loads_of_secluded secluded.of_append
  rw [Step.withdrawsExited]
  cases hdemand : step.demand with
  | settle load outcome =>
    cases outcome with
    | ok entry => rfl
    | error cause =>
      obtain ⟨-, rest, hbegun⟩ := call_of_settle hdemand
      obtain hnone | ⟨only, hone, hrunning, -⟩ := hloads
      · rw [hbegun] at hnone
        cases hnone
      · rw [hbegun, List.cons.injEq] at hone
        rw [Demand.withdrawsExited, hone.1, hrunning]
        rfl
  | nothing | start | finish | clear | join | leave => rfl

theorem Run.miscounted_of_secluded (hrun : Run past kernel) (secluded : Secluded past) :
    miscounted past = 0 := by
  rw [miscounted, List.countP_eq_zero]
  intro step hmem
  rw [hrun.withdrawsExited_of_secluded secluded ((List.rtakeWhile_suffix _ _).mem hmem)]
  exact Bool.false_ne_true

/-- The machine does not stop when a process ends and another one runs. -/
theorem Run.not_stops_of_secluded {status : ExitStatus} (hrun : Run past step.before)
    (secluded : Secluded past) (hsafe : ¬ step.reply.Faulted)
    (hdemand : step.demand = .finish pid status)
    (hrunning : step.before.table.phaseOf? pid = some .running)
    (hliving : step.before.table.phaseOf? other = some .running) (hother : other ≠ pid) :
    step.stops = false := by
  have change := step.change hrun.sound hsafe
  rw [hdemand] at change
  rw [step.stops_eq, Bool.eq_false_iff, ne_eq,
    any_isStop_iff hrun.running_add hrun.sound (change.ends_of_running hrunning),
    hrun.miscounted_of_secluded secluded]
  exact Finset.card_ne_zero_of_mem (Finset.mem_erase.2 ⟨hother, Table.mem_runningPids.2 hliving⟩)

/-! ## Faults -/

theorem Run.counted_of_secluded (hrun : Run past kernel) (secluded : Secluded past) :
    kernel.table.Counted := by
  rw [Table.Counted, ← hrun.running_add, hrun.miscounted_of_secluded secluded, Nat.add_zero]

/-- Only a call made from outside ends a process that does not run. -/
theorem call_of_finish {call : Call Waker} {status : ExitStatus}
    (hdemand : kernel.demand call = .finish pid status) :
    call = .terminate pid status ∨ kernel.table.IsRunning pid := by
  cases call with
  | terminate other last =>
    cases hdemand
    exact .inl rfl
  | poll request waker memory =>
    right
    simp only [demand] at hdemand
    split at hdemand
    · cases hdemand
    · unfold Syscall.demand at hdemand
      split at hdemand
      · cases hdemand
      next hrunning =>
      split at hdemand <;> try cases hdemand
      · exact not_not.1 hrunning
      · exact not_not.1 hrunning
      · split at hdemand <;> cases hdemand
    · cases hdemand
    · cases hdemand
  | spawn | shutdown | openJoin | openSyscall => cases hdemand
  | finishLoad outcome =>
    simp only [demand] at hdemand
    split at hdemand <;> cases hdemand
  | abandon request =>
    simp only [demand] at hdemand
    split at hdemand <;> cases hdemand

/-- To end a process again is a fault, but it does no harm. -/
theorem terminate_exited {first : ExitStatus} (status : ExitStatus)
    (hexited : kernel.table.phaseOf? pid = some (.exited first)) :
    ∃ notice, kernel.perform (.terminate pid status) =
      ⟨kernel, [.note notice], .faulted (.terminatedTwice pid)⟩ := by
  obtain ⟨notice, hrun⟩ := Table.terminate_twice hexited status []
  refine ⟨notice, ?_⟩
  simp [perform, act, terminate, hrun, Answer.ofFailure]

/-- If loaders make no calls, a fault is a process that is ended again. -/
theorem Run.call_of_faulted {call : Call Waker} (hrun : Run past kernel)
    (secluded : Secluded (past ++ [⟨kernel, call⟩])) (hfaulted : (kernel.perform call).Faulted) :
    ∃ pid status first, call = .terminate pid status ∧
      kernel.table.phaseOf? pid = some (.exited first) := by
  obtain ⟨hsafe, -⟩ | ⟨-, hblunder⟩ := perform_spec hrun.sound call
  · exact absurd hfaulted hsafe
  generalize hdemand : kernel.demand call = demand at hblunder
  have counted := hrun.counted_of_secluded secluded.of_append
  cases hblunder with
  | @finish pid status hpresent hbad =>
    obtain ⟨phase, hphase⟩ := Option.ne_none_iff_exists'.1 hpresent
    have hstopped : phase ≠ .running := by
      rintro rfl
      exact counted.ne_zero hphase (hbad hphase)
    obtain rfl | hrunning := call_of_finish hdemand
    · cases phase with
      | running => exact absurd rfl hstopped
      | exited first => exact ⟨pid, status, first, rfl, hphase⟩
    · rw [Table.isRunning_iff_phaseOf?, hphase, Option.some_inj] at hrunning
      exact absurd hrunning hstopped
  | @withdraw load cause hpresent hbad =>
    obtain ⟨-, rest, hloads⟩ := call_of_settle hdemand
    obtain hidle | ⟨only, hone, hrunning, hchildless⟩ := hrun.loads_of_secluded secluded.of_append
    · rw [hidle] at hloads
      cases hloads
    · rw [hone, List.cons.injEq] at hloads
      rw [hloads.1] at hrunning hchildless
      exact absurd (hbad hchildless) (counted.ne_zero hrunning)

theorem Run.kernel_of_faulted {call : Call Waker} (hrun : Run past kernel)
    (secluded : Secluded (past ++ [⟨kernel, call⟩])) (hfaulted : (kernel.perform call).Faulted) :
    (kernel.perform call).kernel = kernel := by
  obtain ⟨pid, status, first, rfl, hexited⟩ := hrun.call_of_faulted secluded hfaulted
  obtain ⟨notice, hreply⟩ := terminate_exited status hexited
  rw [hreply]

/-- A call of a secluded run leads on to one, whether it stops on a fault or not. -/
theorem Run.exists_next {call : Call Waker} (hrun : Run past kernel)
    (secluded : Secluded (past ++ [⟨kernel, call⟩])) :
    ∃ steps, Run steps (kernel.perform call).kernel ∧ Secluded steps := by
  by_cases hfaulted : (kernel.perform call).Faulted
  · rw [hrun.kernel_of_faulted secluded hfaulted]
    exact ⟨past, hrun, secluded.of_append⟩
  · exact ⟨_, hrun.step call hfaulted, secluded⟩

/-! ## Leaving out the faults -/

theorem mem_steps_concat {calls : List (Call Waker)} {call : Call Waker} :
    step ∈ initial.steps (calls ++ [call]) ↔
      step ∈ initial.steps calls ∨ step = ⟨initial.reach calls, call⟩ := by
  rw [steps_append, List.mem_append]
  exact or_congr_right List.mem_singleton

theorem Secluded.of_concat {calls : List (Call Waker)} {call : Call Waker}
    (secluded : Secluded (initial.steps (calls ++ [call]))) :
    Secluded (initial.steps calls) ∧
      ((initial.reach calls).loads = [] ∨ call.endsLoad = true) :=
  ⟨fun step hmem ↦ secluded step (mem_steps_concat.2 (.inl hmem)),
    secluded ⟨initial.reach calls, call⟩ (mem_steps_concat.2 (.inr rfl))⟩

/-- The steps of some calls that did not stop on a fault. -/
def safeSteps (calls : List (Call Waker)) : List (Step Waker) :=
  (initial.steps calls).filter fun step ↦ ¬ step.reply.Faulted

theorem mem_safeSteps {calls : List (Call Waker)} :
    step ∈ safeSteps calls ↔ step ∈ initial.steps calls ∧ ¬ step.reply.Faulted := by
  simp [safeSteps]

theorem safeSteps_concat (calls : List (Call Waker)) (call : Call Waker) :
    safeSteps (calls ++ [call]) = safeSteps calls ++
      if ((initial.reach calls).perform call).Faulted then []
      else [⟨initial.reach calls, call⟩] := by
  have hlast : (initial.reach calls).steps [call] = [⟨initial.reach calls, call⟩] := rfl
  rw [safeSteps, steps_append, List.filter_append, hlast, List.filter_singleton, safeSteps]
  by_cases hfaulted : ((initial.reach calls).perform call).Faulted <;>
    simp [Step.reply, hfaulted]

/-- If loaders make no calls, the steps that stopped on a fault can be left out. -/
theorem run_safeSteps (calls : List (Call Waker)) (secluded : Secluded (initial.steps calls)) :
    Run (safeSteps calls) (initial.reach calls) ∧ Secluded (safeSteps calls) := by
  induction calls using List.reverseRec with
  | nil => exact ⟨.start, nofun⟩
  | append_singleton earlier call ih =>
    obtain ⟨hearlier, hlast⟩ := secluded.of_concat
    obtain ⟨hrun, hpast⟩ := ih hearlier
    have hnext := hpast.concat hlast
    rw [reach_append, safeSteps_concat]
    change Run _ ((initial.reach earlier).perform call).kernel ∧ _
    split
    · next hfaulted =>
      rw [List.append_nil, hrun.kernel_of_faulted hnext hfaulted]
      exact ⟨hrun, hpast⟩
    · next hsafe => exact ⟨hrun.step call hsafe, hnext⟩

/-- Among any calls only an order from outside stops on a fault, if loaders make none. -/
theorem call_of_faulted {calls : List (Call Waker)} (secluded : Secluded (initial.steps calls))
    (hmem : step ∈ initial.steps calls) (hfaulted : step.reply.Faulted) :
    ∃ pid status, step.call = .terminate pid status := by
  induction calls using List.reverseRec with
  | nil => cases hmem
  | append_singleton earlier call ih =>
    obtain ⟨hearlier, hlast⟩ := secluded.of_concat
    obtain hbefore | rfl := mem_steps_concat.1 hmem
    · exact ih hearlier hbefore
    · obtain ⟨hrun, hpast⟩ := run_safeSteps earlier hearlier
      obtain ⟨pid, status, -, hcall, -⟩ := hrun.call_of_faulted (hpast.concat hlast) hfaulted
      exact ⟨pid, status, hcall⟩

/-- What any calls lead to is also led to by calls without a fault, if loaders make none. -/
theorem exists_run_of_secluded (calls : List (Call Waker))
    (secluded : Secluded (initial.steps calls)) :
    ∃ past, Run past (initial.reach calls) ∧ Secluded past :=
  ⟨safeSteps calls, run_safeSteps calls secluded⟩

end Lifecycle.Kernel
