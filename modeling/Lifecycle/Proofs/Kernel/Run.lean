import Lifecycle.Proofs.Kernel.Calls
import Mathlib.Data.List.Induction

/-!
# Runs

A run is a sequence of calls to a kernel, from its start, none of which stopped on a fault. Calls
may come in any order; those made between the start of a load and its end are the loader's.
-/

namespace Lifecycle.Kernel

variable {Waker : Type}

/-- One call, with the kernel that it was made to. -/
structure Step (Waker : Type) where
  before : Kernel Waker
  call : Call Waker

namespace Step

def reply (step : Step Waker) : Reply Waker := step.before.perform step.call

def after (step : Step Waker) : Kernel Waker := step.reply.kernel

def demand (step : Step Waker) : Demand Waker := step.before.demand step.call

end Step

/-- The runs, by their steps so far and the kernel they lead to. -/
inductive Run : List (Step Waker) → Kernel Waker → Prop where
  | start : Run [] initial
  | step {past : List (Step Waker)} {kernel : Kernel Waker} (hrun : Run past kernel)
      (call : Call Waker) (hsafe : ¬ (kernel.perform call).Faulted) :
      Run (past ++ [⟨kernel, call⟩]) (kernel.perform call).kernel

variable {past : List (Step Waker)} {kernel : Kernel Waker}

/-! ## Runs of given calls -/

instance (reply : Reply Waker) : Decidable reply.Faulted :=
  match hanswer : reply.answer with
  | .faulted fault => isTrue ⟨fault, hanswer⟩
  | .done | .opened _ | .spawned _ | .loading .. | .pending | .collected _ | .returned ..
  | .refused _ | .absent => isFalse fun ⟨_, hfault⟩ ↦ by simp [hanswer] at hfault

def steps (kernel : Kernel Waker) : List (Call Waker) → List (Step Waker)
  | [] => []
  | call :: rest => ⟨kernel, call⟩ :: steps (kernel.perform call).kernel rest

/-- The kernel after some calls. -/
def reach (kernel : Kernel Waker) (calls : List (Call Waker)) : Kernel Waker :=
  calls.foldl (fun kernel call ↦ (kernel.perform call).kernel) kernel

theorem reach_append (kernel : Kernel Waker) (calls more : List (Call Waker)) :
    kernel.reach (calls ++ more) = (kernel.reach calls).reach more :=
  List.foldl_append

theorem steps_append (kernel : Kernel Waker) (calls more : List (Call Waker)) :
    kernel.steps (calls ++ more) = kernel.steps calls ++ (kernel.reach calls).steps more := by
  induction calls generalizing kernel with
  | nil => rfl
  | cons call rest ih =>
    rw [List.cons_append, steps, steps, ih, List.cons_append]
    rfl

theorem Run.append (hrun : Run past kernel) (calls : List (Call Waker))
    (hsafe : ∀ step ∈ kernel.steps calls, ¬ step.reply.Faulted) :
    Run (past ++ kernel.steps calls) (kernel.reach calls) := by
  induction calls generalizing past kernel with
  | nil =>
    rw [steps, List.append_nil]
    exact hrun
  | cons call rest ih =>
    rw [steps, List.forall_mem_cons] at hsafe
    rw [steps, List.append_cons]
    exact ih (hrun.step call hsafe.1) hsafe.2

theorem run_of_calls (calls : List (Call Waker))
    (hsafe : ∀ step ∈ initial.steps calls, ¬ step.reply.Faulted) :
    Run (initial.steps calls) (initial.reach calls) :=
  Run.start.append calls hsafe

/-- Memory that holds nothing. -/
def blank : Memory := ⟨0, 0, ∅⟩

/-- A root starts a child and waits for it; the child is killed, and the root collects that. -/
def family : List (Call Nat) :=
  [.spawn none "init" .empty, .finishLoad (.ok ⟨0, 0, 0, 0, blank⟩),
    .spawn (some 1) "child" .empty, .finishLoad (.ok ⟨0, 0, 0, 0, blank⟩), .openJoin 1 2,
    .poll 0 7 blank, .terminate 2 .killed, .poll 0 8 blank]

/-! ## Soundness -/

theorem Change.sound {demand : Demand Waker} {after : Table Waker} {loads : List Load}
    {audible : List (Effect Waker)} {answer : Answer}
    (change : kernel.Change demand after loads audible answer) (sound : kernel.table.Sound) :
    after.Sound := by
  cases change with
  | unchanged | admitted | gone => exact sound
  | inserted hinserted => exact hinserted.sound sound
  | withdrawn _ hremoved => exact hremoved.sound sound
  | ended hends => exact hends.sound sound
  | cleared => exact Table.sound_vacated _
  | polled hattempts => exact hattempts.sound sound
  | released => exact Table.sound_setClaim sound _ none (.inl rfl)

/-- The table shrinks unless a process is taken in. -/
theorem Change.inserted_or_shrinks {demand : Demand Waker} {after : Table Waker}
    {loads : List Load} {audible : List (Effect Waker)} {answer : Answer}
    (change : kernel.Change demand after loads audible answer) (sound : kernel.table.Sound) :
    (∃ (load : Load) (name : String), demand = .start load.parent ∧ loads = load :: kernel.loads ∧
      kernel.table.Inserted after load.parent name load.pid) ∨ kernel.table.Shrinks after := by
  cases change with
  | unchanged | admitted | gone => exact .inr (.refl _)
  | inserted hinserted => exact .inl ⟨_, _, rfl, rfl, hinserted⟩
  | withdrawn _ hremoved => exact .inr hremoved.shrinks
  | ended hends =>
    cases hends with
    | left hended _ => exact .inr (hended.shrinks sound)
    | last hended _ => exact .inr (Table.shrinks_vacated hended.births_eq)
  | cleared => exact .inr (Table.shrinks_vacated rfl)
  | polled hattempts => exact .inr (hattempts.shrinks sound)
  | released => exact .inr (Table.shrinks_setClaim sound _ none)

/-- Only an attempt to join parks a request or hands a status out. -/
theorem Change.isPlain {demand : Demand Waker} {after : Table Waker} {loads : List Load}
    {audible : List (Effect Waker)} {answer : Answer}
    (change : kernel.Change demand after loads audible answer)
    (hdemand : ∀ wait waker, demand ≠ .join wait waker) : answer.IsPlain := by
  cases change with
  | polled _ _ _ _ => exact absurd rfl (hdemand _ _)
  | unchanged _ _ hplain => exact hplain
  | inserted _ hplain => exact hplain
  | admitted _ hplain => exact hplain
  | gone _ _ hplain => exact hplain
  | withdrawn _ _ _ hplain => exact hplain
  | ended _ hplain => exact hplain
  | cleared hplain => exact hplain
  | released _ hplain => exact hplain

theorem change_of_safe (sound : kernel.table.Sound) {call : Call Waker}
    (hsafe : ¬ (kernel.perform call).Faulted) :
    kernel.Change (kernel.demand call) (kernel.perform call).kernel.table
      (kernel.perform call).kernel.loads (kernel.perform call).audible
      (kernel.perform call).answer := by
  obtain ⟨-, hchange⟩ | ⟨hfaulted, -⟩ := perform_spec sound call
  · exact hchange
  · exact absurd hfaulted hsafe

theorem Step.change (step : Step Waker) (sound : step.before.table.Sound)
    (hsafe : ¬ step.reply.Faulted) :
    step.before.Change step.demand step.after.table step.after.loads step.reply.audible
      step.reply.answer :=
  change_of_safe sound hsafe

theorem Run.sound (hrun : Run past kernel) : kernel.table.Sound := by
  induction hrun with
  | start => exact .of_vacant rfl rfl rfl
  | step _ call hsafe ih => exact (change_of_safe ih hsafe).sound ih

/-- What a run was before one of its steps is a run, too. -/
theorem Run.of_append {earlier later : List (Step Waker)} {step : Step Waker}
    (hrun : Run (earlier ++ step :: later) kernel) :
    Run earlier step.before ∧ ¬ step.reply.Faulted := by
  generalize hpast : earlier ++ step :: later = past at hrun
  induction hrun generalizing later with
  | start => simp at hpast
  | step hrun call hsafe ih =>
    obtain rfl | ⟨rest, last, rfl⟩ := List.eq_nil_or_concat later
    · obtain ⟨rfl, hstep⟩ := List.append_inj' hpast rfl
      cases hstep
      exact ⟨hrun, hsafe⟩
    · rw [List.concat_eq_append, ← List.cons_append, ← List.append_assoc] at hpast
      exact ih (List.append_inj' hpast rfl).1

theorem Run.of_concat {step : Step Waker} (hrun : Run (past ++ [step]) kernel) :
    Run past step.before ∧ ¬ step.reply.Faulted ∧ kernel = step.after := by
  generalize hpast : past ++ [step] = steps at hrun
  cases hrun with
  | start => simp at hpast
  | step hrun call hsafe =>
    obtain ⟨rfl, hstep⟩ := List.append_inj' hpast rfl
    cases hstep
    exact ⟨hrun, hsafe, rfl⟩

/-- What holds after a step, and is kept by the steps since, holds at the end. -/
theorem Run.since {motive : List (Step Waker) → Kernel Waker → Prop}
    {earlier later : List (Step Waker)} {first : Step Waker}
    (hrun : Run (earlier ++ first :: later) kernel) (hfirst : motive [] first.after)
    (hnext : ∀ sofar step rest, later = sofar ++ step :: rest →
      Run (earlier ++ first :: sofar) step.before → ¬ step.reply.Faulted →
      motive sofar step.before → motive (sofar ++ [step]) step.after) : motive later kernel := by
  induction later using List.reverseRec generalizing kernel with
  | nil =>
    obtain ⟨-, -, rfl⟩ := hrun.of_concat
    exact hfirst
  | append_singleton sofar last ih =>
    rw [← List.cons_append, ← List.append_assoc] at hrun
    obtain ⟨hbefore, hsafe, rfl⟩ := hrun.of_concat
    refine hnext sofar last [] rfl hbefore hsafe (ih hbefore ?_)
    rintro sofar step rest rfl
    exact hnext sofar step (rest ++ [last]) (by simp)

theorem Run.of_mem (hrun : Run past kernel) {step : Step Waker} (hmem : step ∈ past) :
    step.before.table.Sound ∧
      step.before.Change step.demand step.after.table step.after.loads step.reply.audible
        step.reply.answer := by
  obtain ⟨earlier, later, rfl⟩ := List.append_of_mem hmem
  obtain ⟨hbefore, hsafe⟩ := hrun.of_append
  exact ⟨hbefore.sound, step.change hbefore.sound hsafe⟩

/-- The links between records agree, and fit to the root and the phases, all through a run. -/
theorem Run.wellFormed (hrun : Run past kernel) : kernel.table.WellFormed :=
  hrun.sound.toWellFormed

theorem wellFormed_family :
    Run (initial.steps family) (initial.reach family) ∧
      (initial.reach family).table.WellFormed := by
  have hrun : Run (initial.steps family) (initial.reach family) :=
    run_of_calls family (by decide +kernel)
  exact ⟨hrun, hrun.wellFormed⟩

end Lifecycle.Kernel
