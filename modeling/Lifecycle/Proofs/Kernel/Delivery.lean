import Lifecycle.Proofs.Kernel.Run

/-!
# Exit statuses

The status that a process ends with reaches one joiner at most, and it is lost only with the
record: when nobody is left who could collect it, in a tear-down, or when the load of the process
fails after all. Processes are told apart by their births, for their ids are used again.
-/

namespace Lifecycle.Kernel

variable {Waker : Type}

namespace Step

/-- The process that a step ends, by its birth, and the status it ends with. -/
def ending? (step : Step Waker) : Option (Nat × ExitStatus) :=
  match step.demand with
  | .finish pid status =>
    if step.before.table.IsRunning pid then (step.before.table.birthOf? pid).map (·, status)
    else none
  | _ => none

/-- The status that a poll hands out, and the birth of the process it belongs to. -/
def delivery? (step : Step Waker) : Option (Nat × ExitStatus) :=
  match step.demand with
  | .join wait waker =>
    match (wait.poll waker).run ⟨step.before.table, []⟩ with
    | .done (some (.ok status)) _ => (step.before.table.birthOf? wait.target).map (·, status)
    | _ => none
  | _ => none

/-- How a step takes the record of a process from the table. -/
inductive Drops (step : Step Waker) (pid : Pid) : Prop where
  /-- Its parent collected the status. -/
  | collected {wait : Wait} {waker : Waker} {status : ExitStatus} {birth : Nat}
      (hdemand : step.demand = .join wait waker) (htarget : wait.target = pid)
      (hparent : step.before.table.parentOf? pid = some wait.caller)
      (hdelivery : step.delivery? = some (birth, status))
      (hbirth : step.before.table.birthOf? pid = some birth)
      (hexited : step.before.table.phaseOf? pid = some (.exited status))
  /-- It had exited, and its parent ended without an heir. -/
  | unclaimed {parent : Pid} {first status : ExitStatus}
      (hdemand : step.demand = .finish parent status)
      (hparent : step.before.table.parentOf? pid = some parent)
      (hheir : step.before.table.heirOf parent = none)
      (hexited : step.before.table.phaseOf? pid = some (.exited first))
  /-- It ended and had no parent. -/
  | parentless {status : ExitStatus} (hdemand : step.demand = .finish pid status)
      (hparent : step.before.table.parentOf? pid = none)
      (hrunning : step.before.table.phaseOf? pid = some .running)
  /-- The machine stopped, and no record is left. -/
  | tornDown (size : Nat) (hstop : .stop size ∈ step.reply.effects)
      (hvacant : ∀ other, step.after.table.phaseOf? other = none)
  | rolledBack {load : Load} {cause : LoadFailure}
      (hdemand : step.demand = .settle load (.error cause)) (hpid : load.pid = pid)

end Step

variable {past : List (Step Waker)} {kernel : Kernel Waker} {step : Step Waker}

/-! ## Where records come from -/

/-- A record after a demand, and what it was before: the same, a running process that the demand
has ended, or nothing yet. -/
inductive Origin (before after : Table Waker) (demand : Demand Waker) (pid : Pid) (birth : Nat) :
    Phase → Prop where
  | same {phase : Phase} (hbirth : before.birthOf? pid = some birth)
      (hphase : before.phaseOf? pid = some phase) : Origin before after demand pid birth phase
  | ended {status : ExitStatus} (hdemand : demand = .finish pid status)
      (hbirth : before.birthOf? pid = some birth)
      (hphase : before.phaseOf? pid = some .running) :
      Origin before after demand pid birth (.exited status)
  | born (hbirth : birth = before.births) (hbirths : after.births = before.births + 1) :
      Origin before after demand pid birth .running

section Origin

variable {demand : Demand Waker} {before after : Table Waker} {pid : Pid} {birth : Nat}
  {phase : Phase}

theorem origin_of_inserted {parent : Option Pid} {name : String} {new : Pid}
    (inserted : before.Inserted after parent name new) (hbirth : after.birthOf? pid = some birth)
    (hphase : after.phaseOf? pid = some phase) : Origin before after demand pid birth phase := by
  rw [inserted.birthOf?_eq] at hbirth
  rw [inserted.phaseOf?_eq] at hphase
  split at hbirth
  · next heq =>
    rw [if_pos heq] at hphase
    cases hbirth
    cases hphase
    exact .born rfl inserted.births_eq
  · next hne =>
    rw [if_neg hne] at hphase
    exact .same hbirth hphase

theorem origin_of_removed {gone : Pid} (removed : before.Removed after gone)
    (hbirth : after.birthOf? pid = some birth) (hphase : after.phaseOf? pid = some phase) :
    Origin before after demand pid birth phase := by
  rw [removed.birthOf?_eq] at hbirth
  rw [removed.phaseOf?_eq] at hphase
  split at hbirth
  · cases hbirth
  · next hne =>
    rw [if_neg hne] at hphase
    exact .same hbirth hphase

theorem origin_of_ends {ended : Pid} {status : ExitStatus} {audible : List (Effect Waker)}
    (sound : before.Sound) (ends : before.Ends ended status after audible)
    (hbirth : after.birthOf? pid = some birth) (hphase : after.phaseOf? pid = some phase) :
    Origin before after (.finish ended status) pid birth phase := by
  cases ends with
  | last _ _ => simp [Table.birthOf?] at hbirth
  | left hended _ =>
    rw [hended.birthOf?_eq sound, hphase, if_neg (Option.some_ne_none phase)] at hbirth
    rw [hended.phaseOf?_eq sound] at hphase
    split at hphase
    · next heq =>
      subst heq
      split at hphase
      · cases hphase
      · cases hphase
        exact .ended rfl hbirth hended.was_running
    split at hphase
    · cases hphase
    · exact .same hbirth hphase

theorem origin_of_attempts {caller target : Pid} {token : Nat} {waker : Waker}
    {result : Except Errno (Option ExitStatus)} (sound : before.Sound)
    (attempts : before.Attempts caller target token waker result after)
    (hbirth : after.birthOf? pid = some birth) (hphase : after.phaseOf? pid = some phase) :
    Origin before after demand pid birth phase := by
  cases attempts with
  | stranger | busy => exact .same hbirth hphase
  | collected _ _ hremoved _ => exact origin_of_removed hremoved hbirth hphase
  | parked _ _ _ =>
    rw [Table.birthOf?_setClaim sound] at hbirth
    rw [Table.phaseOf?_setClaim sound] at hphase
    exact .same hbirth hphase

theorem Change.origin {loads : List Load} {audible : List (Effect Waker)} {answer : Answer}
    (change : kernel.Change demand after loads audible answer) (sound : kernel.table.Sound)
    (hbirth : after.birthOf? pid = some birth) (hphase : after.phaseOf? pid = some phase) :
    Origin kernel.table after demand pid birth phase := by
  cases change with
  | unchanged | admitted | gone => exact .same hbirth hphase
  | inserted hinserted => exact origin_of_inserted hinserted hbirth hphase
  | withdrawn _ hremoved => exact origin_of_removed hremoved hbirth hphase
  | ended hends => exact origin_of_ends sound hends hbirth hphase
  | cleared => simp [Table.birthOf?] at hbirth
  | polled hattempts => exact origin_of_attempts sound hattempts hbirth hphase
  | released =>
    rw [Table.birthOf?_setClaim sound] at hbirth
    rw [Table.phaseOf?_setClaim sound] at hphase
    exact .same hbirth hphase

/-- Births only go up. -/
theorem Change.births_le {loads : List Load} {audible : List (Effect Waker)} {answer : Answer}
    (change : kernel.Change demand after loads audible answer) (sound : kernel.table.Sound) :
    kernel.table.births ≤ after.births := by
  obtain ⟨load, name, -, -, hinserted⟩ | hshrinks := change.inserted_or_shrinks sound
  · exact hinserted.births_eq ▸ Nat.le_succ _
  · exact Nat.le_of_eq hshrinks.births_eq.symm

section Old

variable {loads : List Load} {audible : List (Effect Waker)} {answer : Answer}
  (change : kernel.Change demand after loads audible answer) (sound : kernel.table.Sound)
  (hold : birth < kernel.table.births) (hbirth : after.birthOf? pid = some birth)

include change sound hold hbirth

/-- A record with a birth of the past was there before. -/
theorem Change.birthOf?_of_old : kernel.table.birthOf? pid = some birth := by
  obtain ⟨load, name, -, -, hinserted⟩ | hshrinks := change.inserted_or_shrinks sound
  · rw [hinserted.birthOf?_eq] at hbirth
    split at hbirth
    · exact absurd (Option.some.inj hbirth).symm (Nat.ne_of_lt hold)
    · exact hbirth
  · exact hshrinks.birthOf?_of hbirth

/-- A process with a birth of the past that runs has run before. -/
theorem Change.running_of_old (hrunning : after.phaseOf? pid = some .running) :
    kernel.table.phaseOf? pid = some .running := by
  cases change.origin sound hbirth hrunning with
  | same _ hphase => exact hphase
  | born heq _ => exact absurd heq (Nat.ne_of_lt hold)

end Old

end Origin

/-! ## Where records go -/

theorem delivery?_of_yields {wait : Wait} {waker : Waker}
    {result : Except Errno (Option ExitStatus)} {after : Table Waker}
    (hdemand : step.demand = .join wait waker)
    (hyields : (wait.poll waker).Yields step.before.table (.ok (Wait.outcomeOf result)) after []) :
    step.delivery? =
      match result with
      | .ok (some status) => (step.before.table.birthOf? wait.target).map (·, status)
      | _ => none := by
  obtain ⟨added, -, hrun⟩ := hyields []
  simp only [Step.delivery?, hdemand, hrun]
  match result with
  | .ok none | .ok (some _) | .error _ => rfl

theorem delivery?_eq_none (hdemand : ∀ wait waker, step.demand ≠ .join wait waker) :
    step.delivery? = none := by
  unfold Step.delivery?
  split
  · next wait waker hjoin => exact absurd hjoin (hdemand wait waker)
  · rfl

theorem ending?_of_running {pid : Pid} {status : ExitStatus} {birth : Nat}
    (hdemand : step.demand = .finish pid status)
    (hrunning : step.before.table.phaseOf? pid = some .running)
    (hbirth : step.before.table.birthOf? pid = some birth) :
    step.ending? = some (birth, status) := by
  rw [← Table.isRunning_iff_phaseOf?] at hrunning
  simp [Step.ending?, hdemand, hrunning, hbirth]

section Fate

variable {pid : Pid} {birth : Nat} {phase : Phase} (sound : step.before.table.Sound)
  (hbirth : step.before.table.birthOf? pid = some birth)
  (hphase : step.before.table.phaseOf? pid = some phase)

/-- What a record has come to when it stays in the table. -/
def Stays (step : Step Waker) (pid : Pid) (birth : Nat) (phase : Phase) : Prop :=
  step.after.table.birthOf? pid = some birth ∧
    (step.after.table.phaseOf? pid = some phase ∨
      phase = .running ∧ ∃ status, step.ending? = some (birth, status) ∧
        step.after.table.phaseOf? pid = some (.exited status))

include hbirth hphase

theorem stays_of_same (hbirthOf : step.after.table.birthOf? pid = step.before.table.birthOf? pid)
    (hphaseOf : step.after.table.phaseOf? pid = step.before.table.phaseOf? pid) :
    Stays step pid birth phase :=
  ⟨hbirthOf.trans hbirth, .inl (hphaseOf.trans hphase)⟩

theorem stays_of_inserted {parent : Option Pid} {name : String} {new : Pid}
    (inserted : step.before.table.Inserted step.after.table parent name new) :
    Stays step pid birth phase := by
  have hne : pid ≠ new := by
    rintro rfl
    rw [Table.phaseOf?_eq_none_iff.2 inserted.absent] at hphase
    cases hphase
  refine stays_of_same hbirth hphase ?_ ?_
  · rw [inserted.birthOf?_eq, if_neg hne]
  · rw [inserted.phaseOf?_eq, if_neg hne]

theorem stays_of_removed {gone : Pid}
    (removed : step.before.table.Removed step.after.table gone) (hne : pid ≠ gone) :
    Stays step pid birth phase := by
  refine stays_of_same hbirth hphase ?_ ?_
  · rw [removed.birthOf?_eq, if_neg hne]
  · rw [removed.phaseOf?_eq, if_neg hne]

include sound

theorem fate_of_ended {ended : Pid} {status : ExitStatus} {wakers : List Waker}
    (hdemand : step.demand = .finish ended status)
    (hended : step.before.table.Ended step.after.table ended status wakers) :
    step.Drops pid ∨ Stays step pid birth phase := by
  have hphaseOf := hended.phaseOf?_eq sound pid
  have hbirthOf := hended.birthOf?_eq sound pid
  by_cases hself : pid = ended
  · subst hself
    have hrunning := hended.was_running
    rw [hphase, Option.some_inj] at hrunning
    subst hrunning
    rw [if_pos rfl] at hphaseOf
    split at hphaseOf
    · next horphan => exact .inl (.parentless hdemand horphan hphase)
    · rw [hphaseOf, if_neg (Option.some_ne_none _)] at hbirthOf
      exact .inr ⟨hbirthOf.trans hbirth,
        .inr ⟨rfl, status, ending?_of_running hdemand hphase hbirth, hphaseOf⟩⟩
  rw [if_neg hself] at hphaseOf
  split at hphaseOf
  · next hgone =>
    obtain ⟨hparent, hheir, hstopped⟩ := hgone
    cases phase with
    | running => exact absurd hphase hstopped
    | exited first => exact .inl (.unclaimed hdemand hparent hheir hphase)
  · rw [hphaseOf, hphase, if_neg (Option.some_ne_none _)] at hbirthOf
    exact .inr (stays_of_same hbirth hphase hbirthOf hphaseOf)

/-- A step either keeps a record or drops it in one of the ways listed. -/
theorem fate (change : step.before.Change step.demand step.after.table step.after.loads
      step.reply.audible step.reply.answer) :
    step.Drops pid ∨ Stays step pid birth phase := by
  have hstop (size : Nat) (hmem : .stop size ∈ step.reply.audible) :
      .stop size ∈ step.reply.effects := List.mem_of_mem_filter hmem
  generalize hdemand : step.demand = demand at change
  generalize hafter : step.after.table = after at change
  generalize step.after.loads = loads at change
  generalize step.reply.audible = audible at change hstop
  generalize step.reply.answer = answer at change
  cases change with
  | unchanged | admitted | gone =>
    exact .inr (stays_of_same hbirth hphase (by rw [hafter]) (by rw [hafter]))
  | inserted hinserted =>
    subst hafter
    exact .inr (stays_of_inserted hbirth hphase hinserted)
  | @withdrawn load _ _ _ _ _ hremoved =>
    subst hafter
    by_cases hself : pid = load.pid
    · exact .inl (.rolledBack hdemand hself.symm)
    · exact .inr (stays_of_removed hbirth hphase hremoved hself)
  | ended hends =>
    cases hends with
    | left hended _ =>
      subst hafter
      exact fate_of_ended sound hbirth hphase hdemand hended
    | last _ _ => exact .inl (.tornDown 0 (hstop 0 (by simp)) (by simp [hafter, Table.phaseOf?]))
  | cleared => exact .inl (.tornDown 0 (hstop 0 (by simp)) (by simp [hafter, Table.phaseOf?]))
  | @polled wait _ _ _ _ hattempts hyields =>
    have hdelivery := delivery?_of_yields hdemand hyields
    cases hattempts with
    | stranger | busy =>
      exact .inr (stays_of_same hbirth hphase (by rw [hafter]) (by rw [hafter]))
    | collected hparent hexited hremoved _ =>
      subst hafter
      by_cases hself : pid = wait.target
      · subst hself
        rw [hbirth] at hdelivery
        exact .inl (.collected hdemand rfl hparent hdelivery hbirth hexited)
      · exact .inr (stays_of_removed hbirth hphase hremoved hself)
    | parked _ _ _ =>
      refine .inr (stays_of_same hbirth hphase ?_ ?_)
      · rw [hafter, Table.birthOf?_setClaim sound]
      · rw [hafter, Table.phaseOf?_setClaim sound]
  | released =>
    refine .inr (stays_of_same hbirth hphase ?_ ?_)
    · rw [hafter, Table.birthOf?_setClaim sound]
    · rw [hafter, Table.phaseOf?_setClaim sound]

end Fate

/-! ## The ledger of a run -/

theorem ending?_eq_some {birth : Nat} {status : ExitStatus}
    (hending : step.ending? = some (birth, status)) :
    ∃ pid, step.demand = .finish pid status ∧ step.before.table.phaseOf? pid = some .running ∧
      step.before.table.birthOf? pid = some birth := by
  unfold Step.ending? at hending
  split at hending
  · next pid first hdemand =>
    split at hending
    · next hrunning =>
      obtain ⟨same, hbirth, hpair⟩ := Option.map_eq_some_iff.1 hending
      cases hpair
      exact ⟨pid, hdemand, Table.isRunning_iff_phaseOf?.1 hrunning, hbirth⟩
    · cases hending
  · cases hending

/-- A process that was ended does not run. -/
theorem Change.stopped {pid : Pid} {status : ExitStatus} {after : Table Waker} {loads : List Load}
    {audible : List (Effect Waker)} {answer : Answer} (sound : kernel.table.Sound)
    (hrunning : kernel.table.phaseOf? pid = some .running)
    (change : kernel.Change (.finish pid status) after loads audible answer) :
    after.phaseOf? pid ≠ some .running := by
  cases change with
  | unchanged hvoid =>
    cases hvoid with
    | finish _ habsent => simp [habsent] at hrunning
  | ended hends =>
    cases hends with
    | left hended _ =>
      rw [hended.phaseOf?_eq sound, if_pos rfl]
      split <;> simp
    | last _ _ => simp [Table.phaseOf?]

/-- A status that is handed out belongs to an exited process, which is gone afterwards. -/
theorem delivery?_eq_some {birth : Nat} {status : ExitStatus}
    (change : step.before.Change step.demand step.after.table step.after.loads
      step.reply.audible step.reply.answer)
    (hdelivery : step.delivery? = some (birth, status)) :
    ∃ pid, step.before.table.phaseOf? pid = some (.exited status) ∧
      step.before.table.birthOf? pid = some birth ∧ step.after.table.birthOf? pid = none := by
  generalize hdemand : step.demand = demand at change
  generalize step.after.table = after at change ⊢
  generalize step.after.loads = loads at change
  generalize step.reply.audible = audible at change
  generalize step.reply.answer = answer at change
  cases change with
  | @polled wait _ _ _ _ hattempts hyields =>
    rw [delivery?_of_yields hdemand hyields] at hdelivery
    cases hattempts with
    | stranger | busy | parked => cases hdelivery
    | collected _ hexited hremoved _ =>
      obtain ⟨same, hbirth, hpair⟩ := Option.map_eq_some_iff.1 hdelivery
      cases hpair
      exact ⟨wait.target, hexited, hbirth, by rw [hremoved.birthOf?_eq, if_pos rfl]⟩
  | unchanged hvoid =>
    have hnone : step.delivery? = none := delivery?_eq_none fun wait waker hjoin ↦ by
      rw [hjoin] at hdemand
      subst hdemand
      cases hvoid
    rw [hnone] at hdelivery
    cases hdelivery
  | inserted | admitted | gone | withdrawn | ended | cleared | released =>
    have hnone : step.delivery? = none := delivery?_eq_none fun wait waker hjoin ↦ by
      rw [hjoin] at hdemand
      cases hdemand
    rw [hnone] at hdelivery
    cases hdelivery

/-- What the steps of a run say about the table it leads to. -/
structure Ledger (past : List (Step Waker)) (table : Table Waker) : Prop where
  delivered_gone {step : Step Waker} {birth : Nat} {status : ExitStatus} (hmem : step ∈ past)
    (hdelivery : step.delivery? = some (birth, status)) :
    birth < table.births ∧ ∀ pid, table.birthOf? pid ≠ some birth
  ended_stopped {step : Step Waker} {birth : Nat} {status : ExitStatus} (hmem : step ∈ past)
    (hending : step.ending? = some (birth, status)) :
    birth < table.births ∧
      ∀ pid, table.birthOf? pid = some birth → table.phaseOf? pid ≠ some .running
  exited_ended {pid : Pid} {birth : Nat} {status : ExitStatus}
    (hbirth : table.birthOf? pid = some birth)
    (hexited : table.phaseOf? pid = some (.exited status)) :
    ∃ step ∈ past, step.ending? = some (birth, status)

theorem Ledger.snoc (ledger : Ledger past step.before.table) (sound : step.before.table.Sound)
    (change : step.before.Change step.demand step.after.table step.after.loads
      step.reply.audible step.reply.answer) :
    Ledger (past ++ [step]) step.after.table := by
  have hbirths := change.births_le sound
  constructor
  case delivered_gone =>
    intro deliverer birth status hmem hdelivery
    obtain hpast | hlast := List.mem_append.1 hmem
    · obtain ⟨hlt, hgone⟩ := ledger.delivered_gone hpast hdelivery
      refine ⟨Nat.lt_of_lt_of_le hlt hbirths, fun pid hbirth ↦ ?_⟩
      exact hgone pid (change.birthOf?_of_old sound hlt hbirth)
    · rw [List.mem_singleton] at hlast
      subst hlast
      obtain ⟨target, hexited, htarget, hnone⟩ := delivery?_eq_some change hdelivery
      have hlt := sound.birth_lt htarget
      refine ⟨Nat.lt_of_lt_of_le hlt hbirths, fun pid hbirth ↦ ?_⟩
      have hbefore := change.birthOf?_of_old sound hlt hbirth
      rw [sound.birth_injective hbefore htarget, hnone] at hbirth
      cases hbirth
  case ended_stopped =>
    intro ender birth status hmem hending
    obtain hpast | hlast := List.mem_append.1 hmem
    · obtain ⟨hlt, hstopped⟩ := ledger.ended_stopped hpast hending
      refine ⟨Nat.lt_of_lt_of_le hlt hbirths, fun pid hbirth hrunning ↦ ?_⟩
      exact hstopped pid (change.birthOf?_of_old sound hlt hbirth)
        (change.running_of_old sound hlt hbirth hrunning)
    · rw [List.mem_singleton] at hlast
      subst hlast
      obtain ⟨target, hdemand, htarget, hbefore⟩ := ending?_eq_some hending
      have hlt := sound.birth_lt hbefore
      rw [hdemand] at change
      have hstopped := change.stopped sound htarget
      refine ⟨Nat.lt_of_lt_of_le hlt hbirths, fun pid hbirth hrunning ↦ ?_⟩
      have hsame := change.birthOf?_of_old sound hlt hbirth
      rw [sound.birth_injective hsame hbefore] at hrunning
      exact hstopped hrunning
  case exited_ended =>
    intro pid birth status hbirth hexited
    cases change.origin sound hbirth hexited with
    | same hbefore hphase =>
      obtain ⟨ender, hmem, hending⟩ := ledger.exited_ended hbefore hphase
      exact ⟨ender, List.mem_append_left _ hmem, hending⟩
    | ended hdemand hbefore hrunning =>
      exact ⟨step, List.mem_append_right _ (List.mem_singleton_self step),
        ending?_of_running hdemand hrunning hbefore⟩

theorem Run.ledger (hrun : Run past kernel) : Ledger past kernel.table := by
  induction hrun with
  | start =>
    refine ⟨nofun, nofun, fun hbirth _ ↦ ?_⟩
    simp [initial, Table.birthOf?] at hbirth
  | @step past kernel hrun call hsafe ih =>
    exact Ledger.snoc ih hrun.sound (change_of_safe hrun.sound hsafe)

theorem Run.births_le (hrun : Run past kernel) (hmem : step ∈ past) :
    step.before.table.births ≤ kernel.table.births := by
  induction hrun with
  | start => cases hmem
  | @step past kernel hrun call hsafe ih =>
    have hbirths := (change_of_safe hrun.sound hsafe).births_le hrun.sound
    obtain hpast | hlast := List.mem_append.1 hmem
    · exact Nat.le_trans (ih hpast) hbirths
    · rw [List.mem_singleton] at hlast
      subst hlast
      exact hbirths

/-- Births are not used again. -/
theorem Run.newborn {earlier later : List (Step Waker)} {pid : Pid} {birth : Nat}
    (hrun : Run (earlier ++ step :: later) kernel)
    (hbirth : step.after.table.birthOf? pid = some birth) :
    step.before.table.birthOf? pid = some birth ∨
      ∀ former ∈ earlier ++ [step], ∀ other, former.before.table.birthOf? other ≠ some birth := by
  obtain ⟨hbefore, hsafe⟩ := hrun.of_append
  have change := change_of_safe hbefore.sound hsafe
  obtain ⟨record, hrecord, -⟩ := Option.map_eq_some_iff.1 hbirth
  have horigin := change.origin hbefore.sound hbirth (Table.phaseOf?_of_record? hrecord)
  generalize record.phase = phase at horigin
  cases horigin with
  | same hsame _ => exact .inl hsame
  | ended _ hsame _ => exact .inl hsame
  | born heq _ =>
    refine .inr fun former hmem other hother ↦ ?_
    have hle : former.before.table.births ≤ step.before.table.births := by
      obtain hearlier | hlast := List.mem_append.1 hmem
      · exact hbefore.births_le hearlier
      · exact Nat.le_of_eq (congrArg (·.before.table.births) (List.mem_singleton.1 hlast))
    have hformer : former ∈ earlier ++ step :: later := by
      rw [List.append_cons]
      exact List.mem_append_left later hmem
    have hlt := (hrun.of_mem hformer).1.birth_lt hother
    rw [heq] at hlt
    exact Nat.not_lt.2 hle hlt

/-! ## Once each, and not lost -/

/-- A list of events stays free of duplicates if the new step has none of the old ones. -/
theorem nodup_snoc {event? : Step Waker → Option (Nat × ExitStatus)}
    (hpast : ((past.filterMap event?).map (·.1)).Nodup)
    (hnew : ∀ birth status, event? step = some (birth, status) →
      ∀ former ∈ past, ∀ other, event? former ≠ some (birth, other)) :
    (((past ++ [step]).filterMap event?).map (·.1)).Nodup := by
  rw [List.filterMap_append, List.map_append, List.nodup_append]
  cases hevent : event? step with
  | none => simpa [hevent] using hpast
  | some event =>
    obtain ⟨birth, status⟩ := event
    refine ⟨hpast, by simp [hevent], ?_⟩
    intro old hold fresh hfresh heq
    obtain ⟨⟨_, other⟩, hmem, rfl⟩ := List.mem_map.1 hold
    obtain ⟨former, hformer, hsome⟩ := List.mem_filterMap.1 hmem
    have hbirth : fresh = birth := by simpa [hevent] using hfresh
    subst heq hbirth
    exact hnew _ status hevent former hformer other hsome

theorem Run.delivered_nodup (hrun : Run past kernel) :
    ((past.filterMap Step.delivery?).map (·.1)).Nodup := by
  induction hrun with
  | start => exact List.nodup_nil
  | @step past kernel hrun call hsafe ih =>
    apply nodup_snoc ih
    intro birth status hdelivery former hmem other hformer
    obtain ⟨pid, -, hbirth, -⟩ :=
      delivery?_eq_some (change_of_safe hrun.sound hsafe) hdelivery
    exact (hrun.ledger.delivered_gone hmem hformer).2 pid hbirth

theorem Run.ended_nodup (hrun : Run past kernel) :
    ((past.filterMap Step.ending?).map (·.1)).Nodup := by
  induction hrun with
  | start => exact List.nodup_nil
  | @step past kernel hrun call hsafe ih =>
    apply nodup_snoc ih
    intro birth status hending former hmem other hformer
    obtain ⟨pid, -, hrunning, hbirth⟩ := ending?_eq_some hending
    exact (hrun.ledger.ended_stopped hmem hformer).2 pid hbirth hrunning

/-- An exited process whose parent lives on is not dropped behind the parent's back. -/
theorem unlost_of_fate {pid parent : Pid} {birth : Nat} {status : ExitStatus}
    (sound : step.before.table.Sound)
    (change : step.before.Change step.demand step.after.table step.after.loads
      step.reply.audible step.reply.answer)
    (hbirth : step.before.table.birthOf? pid = some birth)
    (hexited : step.before.table.phaseOf? pid = some (.exited status))
    (hparent : step.before.table.parentOf? pid = some parent)
    (hliving : step.after.table.phaseOf? parent = some .running) :
    (step.after.table.birthOf? pid = some birth ∧
      step.after.table.phaseOf? pid = some (.exited status)) ∨
    (step.delivery? = some (birth, status) ∧
      ∃ wait waker, step.demand = .join wait waker ∧ wait.caller = parent) ∨
    ∃ load cause, step.demand = .settle load (.error cause) ∧ load.pid = pid := by
  obtain hdrops | ⟨hkept, hphase | ⟨hrunning, -⟩⟩ := fate sound hbirth hexited change
  · cases hdrops with
    | @collected wait waker first other hdemand htarget hcaller hdelivery hother hphase =>
      rw [hparent, Option.some_inj] at hcaller
      rw [hbirth, Option.some_inj] at hother
      rw [hexited, Option.some_inj, Phase.exited.injEq] at hphase
      subst hother hphase
      exact .inr (.inl ⟨hdelivery, wait, waker, hdemand, hcaller.symm⟩)
    | unclaimed hdemand hother _ _ =>
      rw [hparent, Option.some_inj] at hother
      subst hother
      rw [hdemand] at change
      exact absurd hliving (change.stopped sound (sound.parent_running hparent))
    | parentless _ horphan _ =>
      rw [hparent] at horphan
      cases horphan
    | tornDown _ _ hvacant =>
      rw [hvacant] at hliving
      cases hliving
    | rolledBack hdemand hpid => exact .inr (.inr ⟨_, _, hdemand, hpid⟩)
  · exact .inl ⟨hkept, hphase⟩
  · cases hrunning

end Lifecycle.Kernel
