import Lifecycle.Proofs.Kernel.Reissue
import Lifecycle.Proofs.Kernel.Withdrawal

/-!
# Whose record a failed load takes back

A load that fails takes back the record under the id that its process was given, without a look at
whose record it is by then. All others are spared. The record is that of another process only if the
id was handed out again while the image was being loaded; then that process is taken from the table
in the middle of its life.
-/

namespace Lifecycle.Kernel

variable {Waker : Type} {kernel : Kernel Waker} {earlier meanwhile : List (Step Waker)}
  {begun step : Step Waker} {load : Load} {cause : LoadFailure}

/-- All records but one, told by its birth, stay what they were, and a root with another record
stays the root. -/
structure Spares (before after : Table Waker) (birth : Nat) : Prop where
  record_kept {pid : Pid} {other : Nat} (hbirth : before.birthOf? pid = some other)
    (hother : other ≠ birth) :
    after.birthOf? pid = some other ∧ after.phaseOf? pid = before.phaseOf? pid ∧
      after.parentOf? pid = before.parentOf? pid
  root_kept {root : Pid} {other : Nat} (hroot : before.root = some root)
    (hbirth : before.birthOf? root = some other) (hother : other ≠ birth) :
    after.root = some root

/-- The id of a load belongs to another process than the one that is being loaded. -/
def Usurped (begun : Step Waker) (load : Load) (table : Table Waker) : Prop :=
  ∃ birth, table.birthOf? load.pid = some birth ∧ birth ≠ begun.before.table.births

section Failed

variable {rest : List Load} {after : Table Waker} {audible : List (Effect Waker)} {answer : Answer}
  (change : kernel.Change (.settle load (.error cause)) after rest audible answer)

include change

theorem Change.root_of_failed {root : Pid} (hroot : kernel.table.root = some root)
    (hother : root ≠ load.pid) : after.root = some root := by
  cases change with
  | unchanged hvoid => cases hvoid
  | gone => exact hroot
  | withdrawn _ hremoved =>
    rw [hremoved.root_eq, hroot]
    simp [hother]

/-- Others are spared unless one of them has the id of the load. -/
theorem Change.spares_iff :
    Spares kernel.table after begun.before.table.births ↔ ¬ Usurped begun load kernel.table := by
  have hviews := change.views_of_failed
  constructor
  · rintro spares ⟨birth, hbirth, hother⟩
    have hkept := (spares.record_kept hbirth hother).1
    rw [(hviews load.pid).2.1, if_pos rfl] at hkept
    cases hkept
  · intro hown
    have hne {pid : Pid} {other : Nat} (hbirth : kernel.table.birthOf? pid = some other)
        (hother : other ≠ begun.before.table.births) : pid ≠ load.pid := by
      rintro rfl
      exact hown ⟨other, hbirth, hother⟩
    constructor
    case record_kept =>
      intro pid other hbirth hother
      obtain ⟨hphaseOf, hbirthOf, hparentOf⟩ := hviews pid
      rw [if_neg (hne hbirth hother)] at hphaseOf hbirthOf hparentOf
      exact ⟨hbirthOf.trans hbirth, hphaseOf, hparentOf⟩
    case root_kept =>
      exact fun hroot hbirth hother ↦ change.root_of_failed hroot (hne hbirth hother)

end Failed

/-! ## The record of a load -/

section Loading

variable (hrun : Run (earlier ++ begun :: meanwhile) kernel)
  (loading : Loading begun meanwhile load)

include hrun loading

/-- The process that is being loaded never has a record under another id. -/
theorem Loading.pid_eq {pid : Pid}
    (hbirth : kernel.table.birthOf? pid = some begun.before.table.births) : pid = load.pid := by
  obtain ⟨name, hinserted⟩ := hrun.exists_inserted loading.begins
  have hold : begun.before.table.births < begun.after.table.births := by
    rw [hinserted.births_eq]
    exact Nat.lt_succ_self _
  have hfirst := hrun.birthOf?_of_old hold hbirth
  have hown : begun.after.table.birthOf? load.pid = some begun.before.table.births := by
    rw [hinserted.birthOf?_eq, if_pos rfl]
  exact (hinserted.sound hrun.of_append.1.sound).birth_injective hfirst hown

/-- The id of a load comes to another process by being handed out again, after the machine has
stopped or when no fresh ids are left. -/
theorem Loading.reissued_of_usurped (husurped : Usurped begun load kernel.table) :
    ∃ birth, Reissued meanwhile load.pid birth := by
  obtain ⟨birth, hbirth, hother⟩ := husurped
  obtain ⟨name, hinserted⟩ := hrun.exists_inserted loading.begins
  have hown : begun.after.table.birthOf? load.pid = some begun.before.table.births := by
    rw [hinserted.birthOf?_eq, if_pos rfl]
  exact ⟨birth, hrun.reissued hown hbirth hother⟩

end Loading

/-! ## Loads that fail in a run -/

/-- What a load that fails in a step leaves of the records there are, whatever was done while it was
in progress. -/
structure RollbackKept (begun : Step Waker) (meanwhile : List (Step Waker)) (load : Load)
    (cause : LoadFailure) (step : Step Waker) : Prop where
  answer_eq : step.reply.answer = load.answer (.error cause)
  /-- The process that was being loaded is gone. -/
  own_gone (pid : Pid) : step.after.table.birthOf? pid ≠ some begun.before.table.births
  /-- Nothing changes for other ids. -/
  others_kept {pid : Pid} (hother : pid ≠ load.pid) :
    step.after.table.phaseOf? pid = step.before.table.phaseOf? pid ∧
      step.after.table.birthOf? pid = step.before.table.birthOf? pid ∧
      step.after.table.parentOf? pid = step.before.table.parentOf? pid
  root_kept {root : Pid} (hroot : step.before.table.root = some root) (hother : root ≠ load.pid) :
    step.after.table.root = some root
  /-- All processes but the one that was being loaded are spared, those that were started meanwhile
  among them, unless one of them has its id. -/
  spares_iff :
    Spares step.before.table step.after.table begun.before.table.births ↔
      ¬ Usurped begun load step.before.table
  /-- For that the id must have been handed out again meanwhile, after the machine had stopped or
  when no fresh ids were left. -/
  reissued (husurped : Usurped begun load step.before.table) :
    ∃ birth, Reissued meanwhile load.pid birth

/-- A load that fails takes no record back but the one under its own id. -/
theorem Run.rollbackKept (hrun : Run (earlier ++ begun :: meanwhile) step.before)
    (loading : Loading begun meanwhile load)
    (hloads : step.before.loads = load :: begun.before.loads)
    (hcall : step.call = .finishLoad (.error cause)) (hsafe : ¬ step.reply.Faulted) :
    RollbackKept begun meanwhile load cause step := by
  have sound := hrun.sound
  have hdemand : step.demand = .settle load (.error cause) := by
    simp only [Step.demand, hcall, demand, hloads]
  have change := step.change sound hsafe
  rw [hdemand] at change
  have hviews := change.views_of_failed
  constructor
  case answer_eq =>
    rw [Step.reply, hcall] at hsafe ⊢
    exact answer_finishLoad sound hloads hsafe
  case own_gone =>
    intro pid hbirth
    rw [(hviews pid).2.1] at hbirth
    split at hbirth
    · cases hbirth
    · next hother => exact hother (loading.pid_eq hrun hbirth)
  case others_kept =>
    intro pid hother
    simpa only [if_neg hother] using hviews pid
  case root_kept => exact change.root_of_failed
  case spares_iff => exact change.spares_iff
  case reissued => exact loading.reissued_of_usurped hrun

/-- While a root is being loaded the machine stops, and another root is started. Ids are fresh
again by then, so it gets the same id. -/
def usurped : List (Call Nat) :=
  [.spawn none "init" .empty, .shutdown, .spawn none "next" .empty,
    .finishLoad (.ok ⟨0, 0, 0, 0, blank⟩)]

theorem rollbackKept_usurped :
    let begun : Step Nat := ⟨initial, .spawn none "init" .empty⟩
    let meanwhile := begun.after.steps (usurped.drop 1)
    let load : Load := ⟨1, none, "init", .empty, false⟩
    Usurped begun load (initial.reach usurped).table ∧
      RollbackKept begun meanwhile load .badImage
        ⟨initial.reach usurped, .finishLoad (.error .badImage)⟩ := by
  intro begun meanwhile load
  have hrun : Run ([] ++ begun :: meanwhile) (initial.reach usurped) :=
    run_of_calls usurped (by decide +kernel)
  have hstays : ∀ step ∈ meanwhile, load :: begun.before.loads <:+ step.after.loads := by
    decide +kernel
  have loading : Loading begun meanwhile load := ⟨by decide +kernel, @hstays⟩
  let step : Step Nat := ⟨initial.reach usurped, .finishLoad (.error .badImage)⟩
  have hsafe : ¬ step.reply.Faulted := by decide +kernel
  refine ⟨⟨1, by decide +kernel, by decide +kernel⟩, ?_⟩
  exact Run.rollbackKept hrun loading (by decide +kernel) rfl hsafe

/-- The load of the first root fails, and the second root is taken from the table, although it was
admitted and runs. -/
theorem not_spares_usurped :
    Run (initial.steps usurped) (initial.reach usurped) ∧
      (initial.reach usurped).loads = [⟨1, none, "init", .empty, false⟩] ∧
      (initial.reach usurped).table.birthOf? 1 = some 1 ∧
      (initial.reach usurped).table.root = some 1 ∧
      ((initial.reach usurped).perform (.finishLoad (.error .badImage))).answer =
        .refused .ENOEXEC ∧
      ((initial.reach usurped).perform (.finishLoad (.error .badImage))).kernel.table.birthOf? 1 =
        none ∧
      ((initial.reach usurped).perform (.finishLoad (.error .badImage))).kernel.table.root =
        none := by
  have hrun : Run (initial.steps usurped) (initial.reach usurped) :=
    run_of_calls usurped (by decide +kernel)
  exact ⟨hrun, by decide +kernel, by decide +kernel, by decide +kernel, rfl, by decide +kernel,
    by decide +kernel⟩

end Lifecycle.Kernel
