import Lifecycle.Proofs.Kernel.Admission

/-!
# Ids that are used again

A process may get the id of one that is gone. That happens only after the machine has stopped, when
all ids are fresh again, or when every fresh id has been handed out.
-/

namespace Lifecycle.Kernel

variable {Waker : Type} {kernel : Kernel Waker} {earlier later : List (Step Waker)}
  {first step : Step Waker} {pid : Pid}

/-- A step takes in a process under an id. -/
def Step.TakesIn (step : Step Waker) (pid : Pid) : Prop :=
  step.after.table.birthOf? pid = some step.before.table.births

instance (step : Step Waker) (pid : Pid) : Decidable (step.TakesIn pid) :=
  inferInstanceAs (Decidable (_ = _))

section Change

variable {demand : Demand Waker} {after : Table Waker} {loads : List Load}
  {audible : List (Effect Waker)} {answer : Answer}
  (change : kernel.Change demand after loads audible answer)

include change

/-- Only what was just taken in has the next birth. -/
theorem Change.inserted_of_newborn (sound : kernel.table.Sound)
    (hbirth : after.birthOf? pid = some kernel.table.births) :
    ∃ parent name, kernel.table.Inserted after parent name pid := by
  obtain ⟨load, name, -, -, hinserted⟩ | hshrinks := change.inserted_or_shrinks sound
  · by_cases hself : pid = load.pid
    · exact ⟨load.parent, name, hself ▸ hinserted⟩
    · rw [hinserted.birthOf?_eq, if_neg hself] at hbirth
      exact absurd (sound.birth_lt hbirth) (Nat.lt_irrefl _)
  · exact absurd (sound.birth_lt (hshrinks.birthOf?_of hbirth)) (Nat.lt_irrefl _)

/-- As long as the machine goes on, fresh ids are used up only by processes that are taken in. -/
theorem Change.inserted_or_kept (hgoes : audible.any Effect.isStop = false) :
    (∃ parent name pid, kernel.table.Inserted after parent name pid) ∨
      (after.births = kernel.table.births ∧ after.pids.next = kernel.table.pids.next) := by
  cases change with
  | unchanged | admitted | gone => exact .inr ⟨rfl, rfl⟩
  | inserted hinserted => exact .inl ⟨_, _, _, hinserted⟩
  | withdrawn _ hremoved =>
    exact .inr ⟨hremoved.births_eq, by rw [hremoved.pids_eq, IdPool.next_released]⟩
  | ended hends =>
    cases hends with
    | left hended _ => exact .inr ⟨hended.births_eq, hended.next_eq⟩
    | last _ _ => simp [Effect.isStop] at hgoes
  | cleared => simp [Effect.isStop] at hgoes
  | polled hattempts =>
    cases hattempts with
    | stranger | busy => exact .inr ⟨rfl, rfl⟩
    | collected _ _ hremoved _ =>
      exact .inr ⟨hremoved.births_eq, by rw [hremoved.pids_eq, IdPool.next_released]⟩
    | parked => exact .inr ⟨Table.births_setClaim _ _, by rw [Table.pids_setClaim]⟩
  | released => exact .inr ⟨Table.births_setClaim _ _, by rw [Table.pids_setClaim]⟩

/-- As long as the machine goes on, no id becomes fresh again. -/
theorem Change.next_le (hgoes : audible.any Effect.isStop = false) :
    kernel.table.pids.next ≤ after.pids.next := by
  obtain ⟨_, _, _, hinserted⟩ | ⟨-, hnext⟩ := change.inserted_or_kept hgoes
  · have htake := IdPool.take?_eq_some hinserted.taken
    omega
  · exact Nat.le_of_eq hnext.symm

end Change

/-! ## Younger records -/

/-- A record that is younger than a step was taken in since. -/
theorem Run.exists_takesIn {birth : Nat} (hrun : Run (earlier ++ first :: later) kernel)
    (hbirth : kernel.table.birthOf? pid = some birth) (hyoung : first.after.table.births ≤ birth) :
    ∃ sofar step rest, later = sofar ++ step :: rest ∧ step.TakesIn pid ∧
      step.before.table.births = birth := by
  revert hbirth
  refine hrun.since
    (motive := fun later kernel ↦ kernel.table.birthOf? pid = some birth →
      ∃ sofar step rest, later = sofar ++ step :: rest ∧ step.TakesIn pid ∧
        step.before.table.births = birth) ?_ ?_
  · intro hbirth
    have hlt := hrun.of_append
    have sound := (first.change hlt.1.sound hlt.2).sound hlt.1.sound
    exact absurd (sound.birth_lt hbirth) (Nat.not_lt.2 hyoung)
  · intro sofar step rest _ hbefore hsafe ih hbirth
    have change := step.change hbefore.sound hsafe
    have hlt := (change.sound hbefore.sound).birth_lt hbirth
    obtain ⟨load, name, -, -, hinserted⟩ | hshrinks := change.inserted_or_shrinks hbefore.sound
    · by_cases hself : pid = load.pid
      · rw [hinserted.birthOf?_eq, if_pos hself] at hbirth
        refine ⟨sofar, step, [], rfl, ?_, Option.some.inj hbirth⟩
        rw [Step.TakesIn, hinserted.birthOf?_eq, if_pos hself]
      · rw [hinserted.birthOf?_eq, if_neg hself] at hbirth
        obtain ⟨early, taker, late, rfl, htakes, hborn⟩ := ih hbirth
        exact ⟨early, taker, late ++ [step], by simp, htakes, hborn⟩
    · obtain ⟨early, taker, late, rfl, htakes, hborn⟩ := ih (hshrinks.birthOf?_of hbirth)
      exact ⟨early, taker, late ++ [step], by simp, htakes, hborn⟩

/-- If an id was not handed out since a step, whoever has it had it then. -/
theorem Run.birthOf?_of_untaken {birth : Nat} (hrun : Run (earlier ++ first :: later) kernel)
    (huntaken : ∀ step ∈ later, ¬ step.TakesIn pid)
    (hbirth : kernel.table.birthOf? pid = some birth) :
    first.after.table.birthOf? pid = some birth := by
  by_cases hold : birth < first.after.table.births
  · exact hrun.birthOf?_of_old hold hbirth
  · obtain ⟨sofar, step, rest, rfl, htakes, -⟩ := hrun.exists_takesIn hbirth (Nat.not_lt.1 hold)
    exact absurd htakes (huntaken step List.mem_append_cons_self)

/-- If an id was not handed out since a step that left it unused, it is still unused. -/
theorem Run.absent_of_untaken (hrun : Run (earlier ++ first :: later) kernel)
    (huntaken : ∀ step ∈ later, ¬ step.TakesIn pid)
    (habsent : first.after.table.record? pid = none) : kernel.table.record? pid = none := by
  by_contra hpresent
  obtain ⟨record, hrecord⟩ := Option.ne_none_iff_exists'.1 hpresent
  have hbirth := hrun.birthOf?_of_untaken huntaken (Table.birthOf?_of_record? hrecord)
  rw [Table.birthOf?, habsent] at hbirth
  cases hbirth

/-! ## When an id is handed out again -/

theorem Run.next_le_since (hrun : Run (earlier ++ first :: later) kernel)
    (hgoes : ∀ step ∈ later, step.stops = false) :
    first.after.table.pids.next ≤ kernel.table.pids.next := by
  refine hrun.since (motive := fun _ kernel ↦
    first.after.table.pids.next ≤ kernel.table.pids.next) (Nat.le_refl _) ?_
  rintro sofar step rest rfl hbefore hsafe hle
  have hstep : step.reply.audible.any Effect.isStop = false :=
    step.stops_eq ▸ hgoes step List.mem_append_cons_self
  calc
    first.after.table.pids.next ≤ step.before.table.pids.next := hle
    _ ≤ step.after.table.pids.next := (step.change hbefore.sound hsafe).next_le hstep

/-- An id that was in use after a step is handed out again only if the machine has stopped in the
meantime, or if no fresh ids are left. -/
theorem Run.stopped_or_spent {sofar rest : List (Step Waker)}
    (hrun : Run (earlier ++ first :: (sofar ++ step :: rest)) kernel)
    (hpresent : first.after.table.phaseOf? pid ≠ none) (htakes : step.TakesIn pid) :
    (∃ former ∈ sofar, former.stops = true) ∨
      Limits.pidLimit ≤ step.before.table.pids.next := by
  rw [← List.cons_append, ← List.append_assoc] at hrun
  obtain ⟨hbefore, hsafe⟩ := hrun.of_append
  by_cases hgoes : ∀ former ∈ sofar, former.stops = false
  · right
    have hfirst := hbefore.of_append
    have hused : pid < first.after.table.pids.next :=
      ((((first.change hfirst.1.sound hfirst.2).sound hfirst.1.sound).accounted pid).1
        (.inl hpresent)).2
    obtain ⟨parent, name, hinserted⟩ :=
      (step.change hbefore.sound hsafe).inserted_of_newborn hbefore.sound htakes
    obtain ⟨-, hfresh, -⟩ | ⟨hlimit, -⟩ := IdPool.take?_eq_some hinserted.taken
    · have hnext := hbefore.next_le_since hgoes
      rw [hfresh] at hused
      exact absurd hnext (Nat.not_le.2 hused)
    · rw [← hbefore.sound.limit_eq]
      exact hlimit
  · left
    simpa using hgoes

/-- An id was handed out again in some steps, to a process of a given birth, after the machine had
stopped or when no fresh ids were left. -/
def Reissued (later : List (Step Waker)) (pid : Pid) (birth : Nat) : Prop :=
  ∃ sofar taker rest, later = sofar ++ taker :: rest ∧ taker.TakesIn pid ∧
    taker.before.table.births = birth ∧
    ((∃ former ∈ sofar, former.stops = true) ∨ Limits.pidLimit ≤ taker.before.table.pids.next)

/-- An id comes to be another process's by being handed out again. -/
theorem Run.reissued {old birth : Nat} (hrun : Run (earlier ++ first :: later) kernel)
    (hfirst : first.after.table.birthOf? pid = some old)
    (hbirth : kernel.table.birthOf? pid = some birth) (hother : birth ≠ old) :
    Reissued later pid birth := by
  have hyoung : first.after.table.births ≤ birth := by
    by_contra hold
    rw [hrun.birthOf?_of_old (Nat.not_le.1 hold) hbirth, Option.some_inj] at hfirst
    exact hother hfirst
  obtain ⟨sofar, taker, rest, rfl, htakes, hborn⟩ := hrun.exists_takesIn hbirth hyoung
  have hpresent : first.after.table.phaseOf? pid ≠ none := by
    obtain ⟨phase, hphase⟩ := Table.exists_phaseOf? hfirst
    rw [hphase]
    exact Option.some_ne_none phase
  exact ⟨sofar, taker, rest, rfl, htakes, hborn, hrun.stopped_or_spent hpresent htakes⟩

end Lifecycle.Kernel
