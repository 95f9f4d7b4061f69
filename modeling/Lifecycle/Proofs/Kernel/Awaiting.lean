import Lifecycle.Proofs.Kernel.Slots
import Lifecycle.Proofs.Table.Ancestry
import Lifecycle.Proofs.Table.Count
import Mathlib.Data.Finset.Max

/-!
# Who waits for whom

Processes wait for their children only, and nobody is an ancestor of himself. So a process that lies
deepest among those that run waits for nobody that runs.
-/

namespace Lifecycle.Kernel

variable {Waker : Type} {past : List (Step Waker)} {kernel : Kernel Waker} {pid waiter target : Pid}

/-- A wait that a process has opened holds the slot of another process. -/
def WaitsFor (kernel : Kernel Waker) (waiter target : Pid) : Prop :=
  ∃ claim wait, kernel.table.claimOf? target = some claim ∧
    kernel.waitOf? claim.token = some wait ∧ wait.caller = waiter

theorem Run.parentOf?_of_waitsFor (hrun : Run past kernel)
    (hwaits : kernel.WaitsFor waiter target) :
    kernel.table.parentOf? target = some waiter := by
  obtain ⟨claim, wait, hclaim, hwait, rfl⟩ := hwaits
  obtain ⟨owner, waker, owned⟩ := hrun.owned hclaim
  have hsame := owned.waitOf?_eq
  rw [hwait, Option.some_inj] at hsame
  rw [hsame]
  exact owned.parent_eq

theorem Change.exists_graded {demand : Demand Waker} {after : Table Waker} {loads : List Load}
    {audible : List (Effect Waker)} {answer : Answer} {depth : Pid → Nat}
    (change : kernel.Change demand after loads audible answer) (sound : kernel.table.Sound)
    (graded : kernel.table.Graded depth) : ∃ depth, after.Graded depth := by
  cases change with
  | unchanged | admitted | gone => exact ⟨depth, graded⟩
  | inserted hinserted => exact ⟨_, hinserted.graded sound graded⟩
  | withdrawn _ hremoved => exact ⟨depth, graded.of_le fun _ _ ↦ hremoved.parentOf?_of⟩
  | ended hends =>
    cases hends with
    | left hended _ => exact ⟨_, hended.graded sound graded⟩
    | last _ _ => exact ⟨depth, Table.graded_vacated _ depth⟩
  | cleared => exact ⟨depth, Table.graded_vacated _ depth⟩
  | polled hattempts =>
    cases hattempts with
    | stranger | busy => exact ⟨depth, graded⟩
    | collected _ _ hremoved _ => exact ⟨depth, graded.of_le fun _ _ ↦ hremoved.parentOf?_of⟩
    | parked =>
      exact ⟨depth, graded.of_le fun _ _ h ↦ by rwa [Table.parentOf?_setClaim sound] at h⟩
  | released => exact ⟨depth, graded.of_le fun _ _ h ↦ by rwa [Table.parentOf?_setClaim sound] at h⟩

theorem Run.exists_graded (hrun : Run past kernel) : ∃ depth, kernel.table.Graded depth := by
  induction hrun with
  | start => exact ⟨0, Table.graded_vacated .empty 0⟩
  | step hrun call hsafe ih =>
    obtain ⟨depth, graded⟩ := ih
    exact (change_of_safe hrun.sound hsafe).exists_graded hrun.sound graded

/-- Somebody among those that run has no child that runs. -/
theorem Run.exists_childless (hrun : Run past kernel)
    (hrunning : kernel.table.phaseOf? pid = some .running) :
    ∃ last, kernel.table.phaseOf? last = some .running ∧
      ∀ child, kernel.table.parentOf? child = some last →
        kernel.table.phaseOf? child ≠ some .running := by
  obtain ⟨depth, graded⟩ := hrun.exists_graded
  obtain ⟨last, hlast, hdeepest⟩ :=
    kernel.table.runningPids.exists_max_image depth ⟨pid, Table.mem_runningPids.2 hrunning⟩
  refine ⟨last, Table.mem_runningPids.1 hlast, fun child hparent hchild ↦ ?_⟩
  have hlt := graded child last hparent
  exact Nat.not_lt.2 (hdeepest child (Table.mem_runningPids.2 hchild)) hlt

end Lifecycle.Kernel
