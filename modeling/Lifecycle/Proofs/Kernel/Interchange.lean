import Lifecycle.Proofs.Kernel.Seclusion
import Lifecycle.Proofs.Kernel.Wakeup
import Lifecycle.Proofs.Table.Endings

/-!
# The order in which processes end

As long as the count of running processes is right, it does not matter in which order some processes
end: the same records are left, the same joiners are woken, and the machine stops or does not stop.
If it stops, it stops with the last of them, whichever that is.
-/

namespace Lifecycle

variable {Waker : Type}

/-- A stop of the machine is always heard. -/
theorem Effect.countP_isStop_audible (effects : List (Effect Waker)) :
    (effects.filter isAudible).countP isStop = effects.countP isStop := by
  rw [List.countP_filter]
  apply List.countP_congr
  intro effect _
  cases effect <;> simp [isStop, isAudible]

theorem Effect.countP_isStop_wakes (wakers : List Waker) (size : Nat) :
    (wakers.map (.wake · size)).countP isStop = 0 := by
  rw [List.countP_map, List.countP_eq_zero]
  exact fun _ _ ↦ Bool.false_ne_true

namespace Table

variable {before middle after : Table Waker} {exits others : List (Pid × ExitStatus)}
  {wakers more : List Waker} {stops halts : Nat}

/-- What is left when some processes have ended one after the other, the wakers that were used, and
how often the machine was stopped. -/
inductive AllEnd (before : Table Waker) (exits : List (Pid × ExitStatus)) :
    Table Waker → List Waker → Nat → Prop where
  | left {after : Table Waker} {wakers : List Waker}
      (hended : before.AllEnded after exits wakers) (hleft : exits = [] ∨ after.running ≠ 0) :
      before.AllEnd exits after wakers 0
  | last {middle : Table Waker} {wakers : List Waker}
      (hended : before.AllEnded middle exits wakers) (hsome : exits ≠ [])
      (hlast : middle.running = 0) :
      before.AllEnd exits middle.vacated (wakers ++ middle.parked) 1

/-- How the tables, the wakers and the stops compare that two orders lead to. -/
theorem AllEnd.same {one two : Table Waker} (ended : before.AllEnd exits one wakers stops)
    (other : before.AllEnd others two more halts) (hperm : exits.Perm others) :
    one.Alike two ∧ wakers.Perm more ∧ stops = halts := by
  have hnil : exits = [] ↔ others = [] :=
    ⟨fun h ↦ (h ▸ hperm).symm.eq_nil, fun h ↦ (h ▸ hperm).eq_nil⟩
  cases ended with
  | left hended hleft =>
    cases other with
    | left hother _ => exact ⟨hended.alike hother hperm, hended.wakers_perm hother hperm, rfl⟩
    | last hother hsome hlast =>
      have hrunning := (hended.alike hother hperm).running_eq
      exact absurd (hleft.resolve_left (mt hnil.1 hsome)) (not_not_intro (hrunning.trans hlast))
  | last hended hsome hlast =>
    cases other with
    | left hother hleft =>
      have hrunning := (hended.alike hother hperm).running_eq
      exact absurd (hleft.resolve_left (mt hnil.2 hsome))
        (not_not_intro (hrunning.symm.trans hlast))
    | last hother _ _ =>
      have halike := hended.alike hother hperm
      refine ⟨halike.vacated, ?_, rfl⟩
      rw [halike.parked_eq]
      exact (hended.wakers_perm hother hperm).append_right _

section One

variable {pid : Pid} {status : ExitStatus} {audible : List (Effect Waker)}

theorem AllEnd.single (sound : before.Sound) (hends : before.Ends pid status after audible) :
    before.AllEnd [(pid, status)] after (audible.filterMap Effect.waker?)
      (audible.countP Effect.isStop) := by
  cases hends with
  | left hended hleft =>
    have hall := AllEnded.cons sound hended (.nil (hended.sound sound)) List.not_mem_nil
    rw [List.append_nil] at hall
    rw [Effect.filterMap_waker?_wakes, Effect.countP_isStop_wakes]
    exact .left hall (.inr hleft)
  | @last middle wakers hended hlast =>
    have hall := AllEnded.cons sound hended (.nil (hended.sound sound)) List.not_mem_nil
    rw [List.append_nil] at hall
    rw [List.filterMap_append, List.filterMap_append, Effect.filterMap_waker?_wakes,
      Effect.filterMap_waker?_wakes, List.countP_append, List.countP_append,
      Effect.countP_isStop_wakes, Effect.countP_isStop_wakes]
    change before.AllEnd _ _ (wakers ++ middle.parked ++ []) 1
    rw [List.append_nil]
    exact .last hall (List.cons_ne_nil _ _) hlast

theorem AllEnd.cons (sound : before.Sound) (hended : before.Ended middle pid status wakers)
    (rest : middle.AllEnd exits after more stops) (hsome : exits ≠ [])
    (hnot : pid ∉ exits.map Prod.fst) :
    before.AllEnd ((pid, status) :: exits) after (wakers ++ more) stops := by
  cases rest with
  | left hrest hleft =>
    exact .left (.cons sound hended hrest hnot) (.inr (hleft.resolve_left hsome))
  | last hrest _ hlast =>
    rw [← List.append_assoc]
    exact .last (.cons sound hended hrest hnot) (List.cons_ne_nil _ _) hlast

/-- As long as somebody else runs, the process that ends is not the last one. -/
theorem Ends.ended_of_running {other : Pid} (sound : before.Sound) (counted : before.Counted)
    (hends : before.Ends pid status after audible)
    (hother : before.phaseOf? other = some .running) (hne : other ≠ pid) :
    before.Ended after pid status (audible.filterMap Effect.waker?) ∧
      audible.countP Effect.isStop = 0 := by
  cases hends with
  | left hended _ =>
    rw [Effect.filterMap_waker?_wakes]
    exact ⟨hended, Effect.countP_isStop_wakes _ _⟩
  | last hended hlast =>
    have hstill : other ∈ before.runningPids.erase pid :=
      Finset.mem_erase.2 ⟨hne, mem_runningPids.2 hother⟩
    rw [← hended.runningPids_eq sound, mem_runningPids] at hstill
    exact absurd hlast ((hended.counted sound counted).ne_zero hstill)

end One

end Table

namespace Kernel

variable {kernel : Kernel Waker} {pid : Pid} {status : ExitStatus}
  {exits others : List (Pid × ExitStatus)} {past : List (Step Waker)}

/-- The calls that end some processes. -/
def terminations (exits : List (Pid × ExitStatus)) : List (Call Waker) :=
  exits.map fun exit ↦ .terminate exit.1 exit.2

/-- How often some steps stop the machine. -/
def stopCount (past : List (Step Waker)) : Nat :=
  (past.flatMap (·.reply.effects)).countP Effect.isStop

theorem stopCount_cons (step : Step Waker) (past : List (Step Waker)) :
    stopCount (step :: past) = step.reply.audible.countP Effect.isStop + stopCount past := by
  rw [stopCount, List.flatMap_cons, List.countP_append, stopCount, Reply.audible,
    Effect.countP_isStop_audible]

/-- A running process can be ended, and that changes nothing but the table. -/
theorem perform_terminate (sound : kernel.table.Sound) (counted : kernel.table.Counted)
    (hrunning : kernel.table.phaseOf? pid = some .running) (status : ExitStatus) :
    ∃ after, kernel.table.Ends pid status after (kernel.perform (.terminate pid status)).audible ∧
      (kernel.perform (.terminate pid status)).kernel = { kernel with table := after } ∧
      (kernel.perform (.terminate pid status)).answer = .done := by
  obtain ⟨habsent, -⟩ | ⟨hbad, -⟩ | ⟨after, audible, hends, hyields⟩ :=
    terminate_spec sound pid status
  · rw [habsent] at hrunning
    cases hrunning
  · exact absurd (hbad hrunning) (counted.ne_zero hrunning)
  · obtain ⟨effects, haudible, hact⟩ : ∃ effects, effects.filter Effect.isAudible = audible ∧
        kernel.act (terminate pid status) (fun kernel _ ↦ (kernel, .done)) id =
          ⟨{ kernel with table := after }, effects, .done⟩ := act_of_ok _ _ hyields
    subst haudible
    rw [perform, hact]
    exact ⟨after, hends, rfl, rfl⟩

/-- The table after some calls that end processes, what these calls answer and who is woken. -/
theorem allEnd_of_terminations (sound : kernel.table.Sound) (counted : kernel.table.Counted)
    (hnodup : (exits.map Prod.fst).Nodup)
    (hrunning : ∀ exit ∈ exits, kernel.table.phaseOf? exit.1 = some .running) :
    ∃ after, kernel.reach (terminations exits) = { kernel with table := after } ∧
      (∀ step ∈ kernel.steps (terminations exits), step.reply.answer = .done) ∧
      kernel.table.AllEnd exits after ((kernel.steps (terminations exits)).flatMap Step.woken)
        (stopCount (kernel.steps (terminations exits))) := by
  induction exits generalizing kernel with
  | nil => exact ⟨kernel.table, rfl, nofun, .left (.nil sound) (.inl rfl)⟩
  | cons exit rest ih =>
    obtain ⟨pid, status⟩ := exit
    obtain ⟨hself, hrest⟩ := List.forall_mem_cons.1 hrunning
    obtain ⟨hnot, hdistinct⟩ := List.nodup_cons.1 hnodup
    let first : Step Waker := ⟨kernel, .terminate pid status⟩
    obtain ⟨middle, hends, hkernel, hanswer⟩ := perform_terminate sound counted hself status
    have hwoken : first.woken = (kernel.perform first.call).audible.filterMap Effect.waker? :=
      woken_eq first
    have hstops (past : List (Step Waker)) : stopCount (first :: past) =
        (kernel.perform first.call).audible.countP Effect.isStop + stopCount past :=
      stopCount_cons first past
    cases hlater : rest with
    | nil =>
      refine ⟨middle, hkernel, List.forall_mem_singleton.2 hanswer, ?_⟩
      change kernel.table.AllEnd _ _ (first.woken ++ []) (stopCount [first])
      rw [List.append_nil, hwoken, hstops]
      exact .single sound hends
    | cons next later =>
      have hnext : next ∈ rest := hlater ▸ List.mem_cons_self
      have hother (exit : Pid × ExitStatus) (hmem : exit ∈ rest) : exit.1 ≠ pid :=
        fun heq ↦ hnot (List.mem_map.2 ⟨exit, hmem, heq⟩)
      obtain ⟨hended, hgoes⟩ :=
        hends.ended_of_running sound counted (hrest next hnext) (hother next hnext)
      have hstill (exit : Pid × ExitStatus) (hmem : exit ∈ rest) :
          middle.phaseOf? exit.1 = some .running := by
        rw [hended.phaseOf?_eq sound, if_neg (hother exit hmem),
          if_neg (fun h ↦ h.2.2 (hrest exit hmem)), hrest exit hmem]
      obtain ⟨after, hreach, hdone, hall⟩ := @ih { kernel with table := middle }
        (hended.sound sound) (hended.counted sound counted) hdistinct hstill
      rw [← hlater]
      have hreached : (kernel.perform (.terminate pid status)).kernel.reach (terminations rest) =
          { kernel with table := after } := by rw [hkernel, hreach]
      refine ⟨after, hreached, ?_, ?_⟩
      · refine List.forall_mem_cons.2 ⟨hanswer, ?_⟩
        rw [hkernel]
        exact hdone
      · change kernel.table.AllEnd _ _
          (first.woken ++ ((kernel.perform first.call).kernel.steps (terminations rest)).flatMap
            Step.woken)
          (stopCount (first :: (kernel.perform first.call).kernel.steps (terminations rest)))
        rw [hwoken, hstops, hgoes, Nat.zero_add, hkernel]
        exact .cons sound hended hall (hlater ▸ List.cons_ne_nil _ _) hnot

/-- What is the same whether some processes end in one order or in another. -/
structure Interchange (kernel : Kernel Waker) (exits others : List (Pid × ExitStatus)) : Prop where
  done {step : Step Waker} (hmem : step ∈ kernel.steps (terminations exits)) :
    step.reply.answer = .done
  alike : (kernel.reach (terminations exits)).table.Alike (kernel.reach (terminations others)).table
  requests_eq : (kernel.reach (terminations exits)).requests =
    (kernel.reach (terminations others)).requests
  woken_perm : ((kernel.steps (terminations exits)).flatMap Step.woken).Perm
    ((kernel.steps (terminations others)).flatMap Step.woken)
  stops_eq : stopCount (kernel.steps (terminations exits)) =
    stopCount (kernel.steps (terminations others))

theorem Run.interchange_of_running (hrun : Run past kernel) (secluded : Secluded past)
    (hnodup : (exits.map Prod.fst).Nodup)
    (hrunning : ∀ exit ∈ exits, kernel.table.phaseOf? exit.1 = some .running)
    (hperm : exits.Perm others) : Interchange kernel exits others := by
  have counted := hrun.counted_of_secluded secluded
  obtain ⟨one, hone, hdone, hended⟩ := allEnd_of_terminations hrun.sound counted hnodup hrunning
  obtain ⟨two, htwo, -, hother⟩ := allEnd_of_terminations hrun.sound counted
    ((hperm.map Prod.fst).nodup hnodup) fun exit hmem ↦ hrunning exit (hperm.mem_iff.2 hmem)
  obtain ⟨halike, hwoken, hstops⟩ := hended.same hother hperm
  constructor
  case done => exact hdone _
  case alike =>
    rw [hone, htwo]
    exact halike
  case requests_eq => rw [hone, htwo]
  case woken_perm => exact hwoken
  case stops_eq => exact hstops

/-- If loaders make no calls, processes can end in any order after any calls, even after some that
stopped on a fault. -/
theorem Secluded.interchange {calls : List (Call Waker)}
    (secluded : Secluded (initial.steps calls)) (hnodup : (exits.map Prod.fst).Nodup)
    (hrunning : ∀ exit ∈ exits, (initial.reach calls).table.phaseOf? exit.1 = some .running)
    (hperm : exits.Perm others) : Interchange (initial.reach calls) exits others := by
  obtain ⟨past, hrun, hpast⟩ := exists_run_of_secluded calls secluded
  exact hrun.interchange_of_running hpast hnodup hrunning hperm

/-- A root with a child that has one itself, and whoever has a child waits for it. -/
def lineage : List (Call Nat) :=
  [.spawn none "init" .empty, .finishLoad (.ok ⟨0, 0, 0, 0, blank⟩),
    .spawn (some 1) "child" .empty, .finishLoad (.ok ⟨0, 0, 0, 0, blank⟩),
    .spawn (some 2) "grandchild" .empty, .finishLoad (.ok ⟨0, 0, 0, 0, blank⟩),
    .openJoin 1 2, .poll 0 7 blank, .openJoin 2 3, .poll 1 8 blank]

theorem interchange_lineage :
    Interchange (initial.reach lineage) [(1, .exited 0), (3, .killed), (2, .exited 5)]
      [(2, .exited 5), (3, .killed), (1, .exited 0)] := by
  have secluded : Secluded (initial.steps lineage) := by decide +kernel
  exact secluded.interchange (by decide) (by decide +kernel) (by decide)

end Kernel

end Lifecycle
